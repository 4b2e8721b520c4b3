/-!
# Binary fractions

The exact value of a floating point number, read off its bits. All later steps are on naturals and
integers, so nothing here depends on floating point operations.
-/

namespace StyleSieve.Decimal

/-- The positive number `mantissa * 2 ^ exponent`. It is `narrow` when its lower neighbour lies half
as far away as its upper one. -/
structure Binary where
  mantissa : Nat
  exponent : Int
  narrow : Bool
deriving Repr, DecidableEq

/-- What the bits of a floating point number stand for, its sign apart. -/
inductive Magnitude where
  | zero
  | finite (value : Binary)
  | infinite
  | undefined
deriving Repr, DecidableEq

/-- A magnitude with its sign. -/
structure Signed where
  negative : Bool
  magnitude : Magnitude
deriving Repr, DecidableEq

/-- Bits of the fraction and of the exponent. -/
structure Layout where
  fraction : Nat
  exponent : Nat

def single : Layout := ⟨23, 8⟩

def double : Layout := ⟨52, 11⟩

/-- The magnitude of an exponent field and a fraction field. -/
def Layout.magnitude (l : Layout) (field fraction : Nat) : Magnitude :=
  let bias : Int := Int.pow 2 (l.exponent - 1) - 1 + l.fraction
  if field = Nat.pow 2 l.exponent - 1 then (if fraction = 0 then .infinite else .undefined)
  else if field = 0 then
    (if fraction = 0 then .zero else .finite ⟨fraction, 1 - bias, false⟩)
  else .finite ⟨Nat.pow 2 l.fraction + fraction, field - bias, fraction = 0 && field != 1⟩

/-- The number that a word of bits stands for. -/
def Layout.decode (l : Layout) (bits : Nat) : Signed :=
  { negative := bits / Nat.pow 2 (l.fraction + l.exponent) % 2 = 1
    magnitude := l.magnitude (bits / Nat.pow 2 l.fraction % Nat.pow 2 l.exponent)
      (bits % Nat.pow 2 l.fraction) }

def ofFloat (x : Float) : Signed := double.decode x.toBits.toNat

def ofFloat32 (x : Float32) : Signed := single.decode x.toBits.toNat

end StyleSieve.Decimal
