import StyleSieve.Decimal.Shortest

/-!
# Written numbers

How a decimal is laid out as text: with a fraction always written, and with an exponent outside a
window that is a parameter.
-/

namespace StyleSieve.Decimal

/-- The powers of ten between which a number is written without exponent, as bounds on `point`. -/
structure Window where
  least : Int
  greatest : Int

def digitText (ds : List Nat) : String :=
  String.ofList (ds.map fun d => Char.ofNat (48 + d))

def zeros (n : Nat) : String := String.ofList (List.replicate n '0')

/-- Digits around a decimal point, with at least one digit on each side. -/
def Digits.positional (d : Digits) : String :=
  if d.point ≤ 0 then "0." ++ zeros (-d.point).toNat ++ digitText d.digits
  else
    let whole := d.point.toNat
    if d.digits.length ≤ whole then
      digitText d.digits ++ zeros (whole - d.digits.length) ++ ".0"
    else digitText (d.digits.take whole) ++ "." ++ digitText (d.digits.drop whole)

/-- One digit, a fraction if there is one, and the power of ten. -/
def Digits.scientific (d : Digits) : String :=
  let fraction := digitText (d.digits.drop 1)
  digitText (d.digits.take 1) ++ (if fraction.isEmpty then "" else "." ++ fraction)
    ++ "e" ++ toString (d.point - 1)

def Digits.written (w : Window) (d : Digits) : String :=
  if w.least ≤ d.point ∧ d.point ≤ w.greatest then d.positional else d.scientific

/-- A floating point number in its shortest form. -/
def Signed.written (w : Window) (x : Signed) : String :=
  match x.magnitude with
  | .undefined => "NaN"
  | m =>
    let text := match m with
      | .zero => "0.0"
      | .finite b => b.shortest.written w
      | _ => "inf"
    if x.negative then "-" ++ text else text

/-- The quotient to the nearest integer, halves to the even one. -/
def roundDiv (num den : Nat) : Nat :=
  let q := num / den
  let rest := 2 * (num % den)
  if den < rest || (rest = den && q % 2 = 1) then q + 1 else q

/-- A floating point number with one digit after the point, halves going to the even digit. -/
def Signed.tenths (x : Signed) : String :=
  let n := match x.magnitude with
    | .finite b =>
      let g := b.grid (-1)
      roundDiv (b.mantissa * g.unit) g.step
    | _ => 0
  (if x.negative then "-" else "") ++ toString (n / 10) ++ "." ++ toString (n % 10)

end StyleSieve.Decimal
