import StyleSieve.Decimal.Written

/-!
# Numerals

Numbers as a stylesheet writes them: a sign, digits, a fraction and an exponent. The value is
computed in double precision, digit by digit, and rounded to single precision only when a message
shows it.
-/

namespace StyleSieve.Css

/-- The digits of a written number. -/
abbrev DigitRun := List Nat

/-- A number as written. The fraction and the exponent are absent where the text has none. -/
structure Numeral where
  sign : Option Bool
  whole : DigitRun
  fraction : Option DigitRun
  exponent : Option (Option Bool × DigitRun)
deriving Repr, DecidableEq

namespace Numeral

/-- The number has neither fraction nor exponent. -/
def isInteger (n : Numeral) : Bool := n.fraction.isNone && n.exponent.isNone

/-- A sign is `some true` for a minus and `some false` for a plus. -/
def signFactor : Option Bool → Float
  | some true => -1.0
  | _ => 1.0

def wholeValue (ds : DigitRun) : Float := ds.foldl (fun v d => v * 10.0 + d.toFloat) 0.0

/-- Each digit is added at a tenth of the weight of the one before. -/
def fractionValue (ds : DigitRun) : Float :=
  (ds.foldl (fun (v, weight) d => (v + d.toFloat * weight, weight * 0.1)) (0.0, 0.1)).1

/-- The value in double precision. -/
def value (n : Numeral) : Float :=
  let v := signFactor n.sign * (wholeValue n.whole + fractionValue (n.fraction.getD []))
  match n.exponent with
  | none => v
  | some (sign, ds) => v * Float.pow 10.0 (signFactor sign * wholeValue ds)

/-- The least and the greatest value that an integer is held to. -/
def leastInteger : Int := -Int.pow 2 31

def greatestInteger : Int := Int.pow 2 31 - 1

/-- An integer as written, held between the bounds. -/
def integer (n : Numeral) : Option Int :=
  if n.isInteger then
    let size : Nat := n.whole.foldl (fun v d => v * 10 + d) 0
    let v := if n.sign = some true then -(size : Int) else size
    some (max leastInteger (min greatestInteger v))
  else none

/-- Numbers from a ten thousandth up to ten million millions are shown without exponent. -/
def window : Decimal.Window := ⟨-3, 16⟩

/-- The text of a value in single precision. -/
def shown (x : Float) : String := (Decimal.ofFloat32 x.toFloat32).written window

end Numeral

end StyleSieve.Css
