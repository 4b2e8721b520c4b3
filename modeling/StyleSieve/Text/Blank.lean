import StyleSieve.Text.Ranges

/-!
# Blank characters

The white space of Unicode, and the removal of characters of a class from the ends of a text.
-/

namespace StyleSieve.Text

/-- White space of Unicode. -/
def blanks : Ranges :=
  [(0x9, 0xD), (0x20, 0x20), (0x85, 0x85), (0xA0, 0xA0), (0x1680, 0x1680), (0x2000, 0x200A),
   (0x2028, 0x2029), (0x202F, 0x202F), (0x205F, 0x205F), (0x3000, 0x3000)]

def isBlank (c : Char) : Bool := blanks.has c

/-- The list without the characters of a class at its end. -/
def dropEnd (p : Char → Bool) (cs : List Char) : List Char := (cs.reverse.dropWhile p).reverse

/-- The list without the characters of a class at both ends. -/
def strip (p : Char → Bool) (cs : List Char) : List Char := dropEnd p (cs.dropWhile p)

/-- What is left of a text without the characters of a class at its ends is part of it. -/
theorem exists_append_strip (p : Char → Bool) (cs : List Char) :
    ∃ after, cs = cs.takeWhile p ++ (strip p cs ++ after) := by
  refine ⟨((cs.dropWhile p).reverse.takeWhile p).reverse, ?_⟩
  rw [strip, dropEnd, ← List.reverse_append, List.takeWhile_append_dropWhile,
    List.reverse_reverse, List.takeWhile_append_dropWhile]

/-- A text without the characters of a class at both ends. -/
def trimBy (p : Char → Bool) (s : String) : String := String.ofList (strip p s.toList)

/-- A text without blanks at both ends. -/
def trim (s : String) : String := trimBy isBlank s

/-- Single and double quotes. -/
def isQuote (c : Char) : Bool := c == '"' || c == '\''

/-- A text without quotes at both ends. -/
def unquote (s : String) : String := trimBy isQuote s

/-- The maximal runs of characters of a class, in order; `run` holds the run being read,
reversed. -/
def runsFrom (p : Char → Bool) (run : List Char) : List Char → List (List Char)
  | [] => if run.isEmpty then [] else [run.reverse]
  | c :: cs =>
    if p c then runsFrom p (c :: run) cs
    else if run.isEmpty then runsFrom p [] cs
    else run.reverse :: runsFrom p [] cs

/-- The maximal runs of characters of a class, in order. -/
def runs (p : Char → Bool) (s : String) : List String :=
  (runsFrom p [] s.toList).map String.ofList

/-- The words between blanks. -/
def words (s : String) : List String := runs (fun c => !isBlank c) s

@[simp] theorem strip_nil (p : Char → Bool) : strip p [] = [] := rfl

end StyleSieve.Text
