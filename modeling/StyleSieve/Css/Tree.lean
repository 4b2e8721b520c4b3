import StyleSieve.Css.Lexer
import StyleSieve.Text.Width

/-!
# Token trees

Lexemes are grouped by their brackets. A block runs from a bracket, or a function, to the bracket
that closes it or else to the end of the text; brackets of another kind inside it are ordinary
leaves. `forest_lexemes` says that grouping keeps every lexeme in its place.
-/

namespace StyleSieve.Css

/-- A lexeme on its own, or the trees between two brackets. An unclosed block has no `close`. -/
inductive Tree where
  | leaf (lexeme : Lexeme)
  | block (head : Lexeme) (body : List Tree) (close : Option Lexeme)
deriving Repr

namespace Tree

mutual

/-- The lexemes of a tree in order. -/
def lexemes : Tree → List Lexeme
  | leaf l => [l]
  | block h body close => h :: (lexemesOf body ++ close.toList)

/-- The lexemes of several trees in order. -/
def lexemesOf : List Tree → List Lexeme
  | [] => []
  | t :: ts => t.lexemes ++ lexemesOf ts

end

@[simp] theorem lexemesOf_nil : lexemesOf [] = [] := by simp [lexemesOf]

@[simp] theorem lexemesOf_cons (t : Tree) (ts : List Tree) :
    lexemesOf (t :: ts) = t.lexemes ++ lexemesOf ts := by simp [lexemesOf]

@[simp] theorem lexemesOf_append (ts us : List Tree) :
    lexemesOf (ts ++ us) = lexemesOf ts ++ lexemesOf us := by
  induction ts with
  | nil => simp
  | cons t ts ih => simp [ih]

/-- The token that a tree begins with. -/
def token : Tree → Token
  | leaf l => l.token
  | block h _ _ => h.token

/-- The text of a tree. -/
def raw (t : Tree) : List Char := t.lexemes.flatMap Lexeme.raw

/-- The text of several trees. -/
def rawOf (ts : List Tree) : List Char := (lexemesOf ts).flatMap Lexeme.raw

@[simp] theorem rawOf_nil : rawOf [] = [] := by simp [rawOf]

@[simp] theorem rawOf_cons (t : Tree) (ts : List Tree) : rawOf (t :: ts) = t.raw ++ rawOf ts := by
  simp [rawOf, raw]

@[simp] theorem rawOf_append (ts us : List Tree) : rawOf (ts ++ us) = rawOf ts ++ rawOf us := by
  simp [rawOf]

/-- The text of a tree as a string. -/
def text (t : Tree) : String := String.ofList t.raw

/-- Bytes of a tree. -/
def width (t : Tree) : Nat := Text.width t.raw

/-- Bytes of several trees. -/
def widthOf (ts : List Tree) : Nat := Text.width (rawOf ts)

@[simp] theorem widthOf_nil : widthOf [] = 0 := by simp [widthOf]

@[simp] theorem widthOf_append (ts us : List Tree) :
    widthOf (ts ++ us) = widthOf ts + widthOf us := by
  simp [widthOf]

mutual

/-- The number of trees in a tree, itself included. -/
def count : Tree → Nat
  | leaf _ => 1
  | block _ body _ => 1 + countOf body

/-- The number of trees in a list of trees. -/
def countOf : List Tree → Nat
  | [] => 0
  | t :: ts => t.count + countOf ts

end

@[simp] theorem countOf_nil : countOf [] = 0 := by simp [countOf]

@[simp] theorem countOf_cons (t : Tree) (ts : List Tree) :
    countOf (t :: ts) = t.count + countOf ts := by simp [countOf]

theorem count_pos (t : Tree) : 0 < t.count := by
  cases t <;> simp only [count] <;> omega

theorem countOf_dropWhile_le (p : Tree → Bool) (ts : List Tree) :
    countOf (ts.dropWhile p) ≤ countOf ts := by
  induction ts with
  | nil => simp
  | cons t ts ih =>
    rw [List.dropWhile_cons]
    split
    · simp; omega
    · exact Nat.le_refl _

theorem countOf_of_dropWhile_eq_cons {p : Tree → Bool} {ts us : List Tree} {u : Tree}
    (h : ts.dropWhile p = u :: us) : u.count + countOf us ≤ countOf ts := by
  have := countOf_dropWhile_le p ts
  simpa [h] using this

/-- A block whose end has not been read, with the trees before it, last first. -/
structure Frame where
  head : Lexeme
  bracket : Bracket
  before : List Tree

/-- The lexemes held by the open blocks, innermost first, and by the trees read in the innermost,
last first. -/
def held : List Frame → List Tree → List Lexeme
  | [], done => lexemesOf done.reverse
  | f :: fs, done => held fs f.before ++ f.head :: lexemesOf done.reverse

/-- Ends every open block where the text ends. -/
def unwind : List Frame → List Tree → List Tree
  | [], done => done.reverse
  | f :: fs, done => unwind fs (block f.head done.reverse none :: f.before)

/-- Reads lexemes into trees, with the open blocks and the trees read so far. -/
def grow : List Frame → List Tree → List Lexeme → List Tree
  | frames, done, [] => unwind frames done
  | f :: fs, done, l :: ls =>
    if l.token.closes = some f.bracket then
      grow fs (block f.head done.reverse (some l) :: f.before) ls
    else
      match l.token.opens with
      | some b => grow (⟨l, b, done⟩ :: f :: fs) [] ls
      | none => grow (f :: fs) (leaf l :: done) ls
  | [], done, l :: ls =>
    match l.token.opens with
    | some b => grow [⟨l, b, done⟩] [] ls
    | none => grow [] (leaf l :: done) ls

/-- The trees of a text cut into lexemes. -/
def forest (ls : List Lexeme) : List Tree := grow [] [] ls

theorem unwind_lexemes (frames : List Frame) (done : List Tree) :
    lexemesOf (unwind frames done) = held frames done := by
  induction frames generalizing done with
  | nil => rfl
  | cons f fs ih =>
    rw [unwind, ih]
    cases fs <;> simp [held, lexemes]

theorem held_cons (frames : List Frame) (t : Tree) (done : List Tree) :
    held frames (t :: done) = held frames done ++ t.lexemes := by
  cases frames <;> simp [held]

theorem grow_lexemes (frames : List Frame) (done : List Tree) (ls : List Lexeme) :
    lexemesOf (grow frames done ls) = held frames done ++ ls := by
  fun_induction grow frames done ls with
  | case1 => simp [unwind_lexemes]
  | case2 _ _ _ _ _ _ ih => rw [ih, held_cons]; simp [held, lexemes]
  | case3 _ _ _ _ _ _ _ _ ih => rw [ih]; simp [held]
  | case4 _ _ _ _ _ _ _ ih => rw [ih, held_cons]; simp [lexemes]
  | case5 _ _ _ _ _ ih => rw [ih]; simp [held]
  | case6 _ _ _ _ ih => rw [ih, held_cons]; simp [lexemes]

/-- The trees hold the lexemes they were made of, in order. -/
theorem forest_lexemes (ls : List Lexeme) : lexemesOf (forest ls) = ls := by
  simp [forest, grow_lexemes, held]

/-- The trees of a text. -/
def ofText (cs : List Char) : List Tree := forest (Css.lexemes cs)

/-- The trees of a text make up the text. -/
theorem rawOf_ofText (cs : List Char) : rawOf (ofText cs) = cs := by
  simp [ofText, rawOf, forest_lexemes, lexemes_raw]

end Tree

end StyleSieve.Css
