import StyleSieve.Text.Width

/-!
# Slices

Parts of a text between two byte offsets.
-/

namespace StyleSieve.Text

/-- The text from a byte offset on. -/
def dropBytes : Nat → List Char → List Char
  | _, [] => []
  | n, c :: cs => if n = 0 then c :: cs else dropBytes (n - c.utf8Size) cs

/-- The text up to a byte offset. -/
def takeBytes : Nat → List Char → List Char
  | _, [] => []
  | n, c :: cs => if n = 0 then [] else c :: takeBytes (n - c.utf8Size) cs

/-- The text between two byte offsets. -/
def slice (s : String) (start stop : Nat) : String :=
  String.ofList (takeBytes (stop - start) (dropBytes start s.toList))

theorem dropBytes_width (cs ds : List Char) : dropBytes (width cs) (cs ++ ds) = ds := by
  induction cs with
  | nil => cases ds <;> simp [dropBytes]
  | cons c cs ih =>
    have := c.utf8Size_pos
    rw [List.cons_append, dropBytes, if_neg (by simp; omega), width_cons, Nat.add_sub_cancel_left]
    exact ih

theorem takeBytes_width (cs ds : List Char) : takeBytes (width cs) (cs ++ ds) = cs := by
  induction cs with
  | nil => cases ds <;> simp [takeBytes]
  | cons c cs ih =>
    have := c.utf8Size_pos
    rw [List.cons_append, takeBytes, if_neg (by simp; omega), width_cons,
      Nat.add_sub_cancel_left, ih]

end StyleSieve.Text
