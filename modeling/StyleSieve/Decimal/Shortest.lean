import StyleSieve.Decimal.Binary

/-!
# Shortest decimals

The decimal with the fewest digits among those that read back as a given binary fraction, and of
these the nearest. The search is over decimal grids from coarse to fine; if a point of a grid reads
back, so does one of the two neighbours of the value on that grid, hence only those are tried.
-/

namespace StyleSieve.Decimal

/-- The number `0.d₁d₂… * 10 ^ point`. -/
structure Digits where
  digits : List Nat
  point : Int
deriving Repr, DecidableEq

/-- Decimal digits of a natural number, most significant first; none for zero. -/
def digitsOf (n : Nat) : List Nat :=
  if n = 0 then [] else digitsOf (n / 10) ++ [n % 10]
termination_by n
decreasing_by omega

/-- A grid of decimals seen from a binary number: the value `n * 10 ^ place` is at most
`k * 2 ^ exponent` iff `n * step ≤ k * unit`. -/
structure Grid where
  step : Nat
  unit : Nat

/-- The grid of the multiples of `10 ^ place`. -/
def Binary.grid (b : Binary) (place : Int) : Grid :=
  { step := Nat.pow 10 place.toNat * Nat.pow 2 (-b.exponent).toNat
    unit := Nat.pow 10 (-place).toNat * Nat.pow 2 b.exponent.toNat }

/-- The decimal `n * 10 ^ place` lies among the reals that round to the binary number. The ends
belong to them iff the mantissa is even. -/
def Binary.readsBack (b : Binary) (place : Int) (n : Nat) : Bool :=
  let g := b.grid place
  let below := (4 * b.mantissa - (if b.narrow then 1 else 2)) * g.unit
  let above := (4 * b.mantissa + 2) * g.unit
  let here := 4 * n * g.step
  if b.mantissa % 2 = 0 then below ≤ here && here ≤ above else below < here && here < above

/-- The least `point` with the number below `10 ^ point`. -/
def Binary.point (b : Binary) : Int :=
  let g := b.grid 0
  let n := b.mantissa * g.unit
  if g.step ≤ n then (digitsOf (n / g.step)).length
  else
    let k := (digitsOf (g.step / n)).length
    if g.step ≤ n * Nat.pow 10 (k - 1) then 2 - k else 1 - k

/-- The neighbour on a grid that reads back, the nearer of two, the even one of two as near. -/
def Binary.onGrid (b : Binary) (place : Int) : Option Nat :=
  let g := b.grid place
  let value := b.mantissa * g.unit
  let low := value / g.step
  match b.readsBack place low, b.readsBack place (low + 1) with
  | true, true =>
    let down := value - low * g.step
    let up := (low + 1) * g.step - value
    some (if down < up || (down = up && low % 2 = 0) then low else low + 1)
  | true, false => some low
  | false, true => some (low + 1)
  | false, false => none

/-- Seventeen digits tell every double from its neighbours. -/
def mostDigits : Nat := 17

/-- A multiple of `10 ^ place` as digits without zeros at the end. -/
def Digits.ofMultiple (n : Nat) (place : Int) : Digits :=
  let ds := digitsOf n
  { digits := (ds.reverse.dropWhile (· = 0)).reverse, point := ds.length + place }

/-- The shortest decimal that reads back. -/
def Binary.shortest (b : Binary) : Digits :=
  let point := b.point
  let found := (List.range mostDigits).findSome? fun (k : Nat) =>
    let place := point - (k + 1 : Nat)
    (b.onGrid place).map fun n => Digits.ofMultiple n place
  found.getD (Digits.ofMultiple ((b.mantissa * (b.grid 0).unit) / (b.grid 0).step) 0)

end StyleSieve.Decimal
