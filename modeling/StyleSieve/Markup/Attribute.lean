import StyleSieve.Markup.Piece

/-!
# Attributes

The inside of a start tag is a name and attributes. A value may stand between quotes or end at white
space, and an attribute may have none; an equals sign that no name precedes is taken for a name.
-/

namespace StyleSieve.Markup

open Text
open Css (startsWith)

/-- An attribute as written. One without a value has an empty one. -/
structure Attribute where
  name : List Char
  value : List Char
deriving Repr, DecidableEq

/-- Characters that may follow the first one of an attribute's name. -/
def inName (c : Char) : Bool := c != '=' && !isTagSpace c

/-- The value after an equals sign in a tag of `size` bytes, and the characters that it takes. -/
def readValue (size : Nat) (cs : List Char) : Except MarkupFault (List Char × Nat) :=
  let gap := (cs.takeWhile isTagSpace).length
  match cs.drop gap with
  | [] => .error (.missingValue size)
  | q :: body =>
    if isQuote q then
      let value := body.takeWhile (· != q)
      if value.length < body.length then .ok (value, gap + value.length + 2)
      else .error (.missingQuote size q)
    else
      let value := q :: body.takeWhile (!isTagSpace ·)
      .ok (value, gap + value.length)

theorem length_of_drop_eq_cons {n : Nat} {cs rest : List Char} {c : Char}
    (h : cs.drop n = c :: rest) : rest.length + 1 ≤ cs.length := by
  have hlength := congrArg List.length h
  rw [List.length_drop, List.length_cons] at hlength
  omega

/-- The attributes in a tag of `size` bytes. -/
def attributes (size : Nat) (cs : List Char) : Except MarkupFault (List Attribute) :=
  match h : cs.drop (cs.takeWhile isTagSpace).length with
  | [] => .ok []
  | c :: rest =>
    have : rest.length + 1 ≤ cs.length := length_of_drop_eq_cons h
    let name := rest.takeWhile inName
    let after := rest.drop name.length
    let gap := (after.takeWhile isTagSpace).length
    if startsWith (· == '=') (after.drop gap) then
      let text := after.drop (gap + 1)
      match readValue size text with
      | .error e => .error e
      | .ok (value, n) => (⟨c :: name, value⟩ :: ·) <$> attributes size (text.drop n)
    else (⟨c :: name, []⟩ :: ·) <$> attributes size (after.drop gap)
termination_by cs.length
decreasing_by all_goals (simp only [List.length_drop]; omega)

end StyleSieve.Markup
