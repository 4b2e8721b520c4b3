/-!
# Hexadecimal numbers

Digits in either letter case, the numbers that they write, and the characters with those numbers.
-/

namespace StyleSieve.Text

def isHexDigit (c : Char) : Bool :=
  c.isDigit || ('a' ≤ c && c ≤ 'f') || ('A' ≤ c && c ≤ 'F')

def hexValue (c : Char) : Nat :=
  if c.isDigit then c.toNat - 48
  else if 'a' ≤ c then c.toNat - 87
  else c.toNat - 55

/-- The number that some digits write. -/
def hexNumber (ds : List Char) : Nat := ds.foldl (fun n d => n * 16 + hexValue d) 0

/-- The character with a number, if it is written with digits alone. -/
def numberedChar (ds : List Char) : Option Char :=
  if !ds.isEmpty && ds.all isHexDigit && (hexNumber ds).isValidChar then
    some (Char.ofNat (hexNumber ds))
  else none

/-- The character with a number that the first `count` characters of a text write. -/
def leadingChar (count : Nat) (cs : List Char) : Option Char :=
  if cs.length < count then none else numberedChar (cs.take count)

end StyleSieve.Text
