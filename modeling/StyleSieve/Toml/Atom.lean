import StyleSieve.Text.Hex
import StyleSieve.Toml.Text

/-!
# Numbers, dates and truth values of TOML

Nothing is asked of these values but that they are well formed, so that they are checked and
not computed.
-/

namespace StyleSieve.Toml

/-- Characters of numbers, dates and truth values. -/
def isAtomChar (c : Char) : Bool := c.isAlphanum || [':', '.', '+', '-', '_'].contains c

/-- A text less a sign at its beginning. -/
def unsigned : List Char → List Char
  | c :: cs => if c == '+' || c == '-' then cs else c :: cs
  | [] => []

/-- Digits of a class, between any two of which one underscore may stand. -/
def isSpaced (p : Char → Bool) : List Char → Bool
  | [] => false
  | [c] => p c
  | c :: '_' :: cs => p c && isSpaced p cs
  | c :: cs => p c && isSpaced p cs

/-- The digits among spaced ones. -/
def digitsOf (cs : List Char) : List Char := cs.filter (· ≠ '_')

/-- A number of digits to a base. -/
def numberIn (base : Nat) (cs : List Char) : Nat :=
  (digitsOf cs).foldl (fun n d => n * base + Text.hexValue d) 0

/-- The bound of integers. -/
def bound : Nat := Nat.pow 2 63

/-- Decimal digits without needless zeros at the beginning. -/
def isPlainNumber (cs : List Char) : Bool :=
  isSpaced Char.isDigit cs && (cs.head? ≠ some '0' || cs.length = 1)

def isDecimal (cs : List Char) : Bool :=
  let digits := unsigned cs
  let n := numberIn 10 digits
  isPlainNumber digits && (n < bound || (n = bound && cs.head? = some '-'))

/-- Integers, decimal or after the sign of another base. -/
def isInteger (cs : List Char) : Bool :=
  match cs with
  | '0' :: 'x' :: ds => isSpaced Text.isHexDigit ds && numberIn 16 ds < bound
  | '0' :: 'o' :: ds => isSpaced (fun c => '0' ≤ c && c ≤ '7') ds && numberIn 8 ds < bound
  | '0' :: 'b' :: ds => isSpaced (fun c => c == '0' || c == '1') ds && numberIn 2 ds < bound
  | _ => isDecimal cs

/-! ## Floats -/

/-- A decimal fraction: digits before and after the point, and an exponent. -/
structure Fraction where
  whole : List Char
  part : Option (List Char)
  exponent : Option (List Char)
deriving Repr, DecidableEq

/-- A text divided at the first character of a class. -/
def divide (p : Char → Bool) (cs : List Char) : List Char × Option (List Char) :=
  match cs.dropWhile (!p ·) with
  | [] => (cs, none)
  | _ :: rest => (cs.takeWhile (!p ·), some rest)

def Fraction.read (cs : List Char) : Fraction :=
  let (number, exponent) := divide (fun c => c == 'e' || c == 'E') cs
  let (whole, part) := divide (· == '.') number
  ⟨whole, part, exponent⟩

def Fraction.isWellFormed (f : Fraction) : Bool :=
  isPlainNumber f.whole && (f.part.isSome || f.exponent.isSome)
    && f.part.all (isSpaced Char.isDigit)
    && f.exponent.all fun e => isSpaced Char.isDigit (unsigned e)

/-- The least numbers that round to infinity in double precision. -/
def overflow : Nat := Nat.pow 2 1024 - Nat.pow 2 970

/-- The fraction is too large for double precision. Exponents that settle the matter alone are not
computed. -/
def Fraction.isTooLarge (f : Fraction) : Bool :=
  let part := (f.part.map digitsOf).getD []
  let digits := digitsOf f.whole ++ part
  let n := numberIn 10 digits
  let exponent := f.exponent.getD ['0']
  let e := numberIn 10 (unsigned exponent)
  if n = 0 then false
  else if exponent.head? = some '-' then
    n ≥ overflow * Nat.pow 10 (part.length + min e digits.length)
  else if e > 400 + part.length then true
  else n * Nat.pow 10 e ≥ overflow * Nat.pow 10 part.length

/-- Floats. Too large ones are refused, but not with a minus sign. -/
def isFloat (cs : List Char) : Bool :=
  let f := Fraction.read (unsigned cs)
  unsigned cs = ['i', 'n', 'f'] || unsigned cs = ['n', 'a', 'n']
    || (f.isWellFormed && (cs.head? = some '-' || !f.isTooLarge))

/-! ## Dates and times -/

/-- The number that exactly `count` decimal digits write at the beginning of a text, and the
rest. -/
def leadingNumber (count : Nat) (cs : List Char) : Option (Nat × List Char) :=
  let digits := cs.take count
  if digits.length = count && digits.all Char.isDigit then
    some (numberIn 10 digits, cs.drop count)
  else none

/-- The rest of a text that begins with a character. -/
def after (p : Char → Bool) : List Char → Option (List Char)
  | [] => none
  | c :: cs => if p c then some cs else none

def isLeapYear (year : Nat) : Bool := year % 4 = 0 && (year % 100 ≠ 0 || year % 400 = 0)

def daysIn (year month : Nat) : Nat :=
  if month = 2 then if isLeapYear year then 29 else 28
  else if [4, 6, 9, 11].contains month then 30
  else 31

/-- What follows a date. -/
def afterDate (cs : List Char) : Option (List Char) := do
  let (year, cs) ← leadingNumber 4 cs
  let (month, cs) ← leadingNumber 2 (← after (· == '-') cs)
  let (day, cs) ← leadingNumber 2 (← after (· == '-') cs)
  if 1 ≤ month ∧ month ≤ 12 ∧ 1 ≤ day ∧ day ≤ daysIn year month then some cs else none

/-- What follows hours and minutes. -/
def afterMinutes (cs : List Char) : Option (List Char) := do
  let (hour, cs) ← leadingNumber 2 cs
  let (minute, cs) ← leadingNumber 2 (← after (· == ':') cs)
  if hour ≤ 23 ∧ minute ≤ 59 then some cs else none

/-- What follows a time of day; a minute may have a leap second. -/
def afterTime (cs : List Char) : Option (List Char) := do
  let cs ← afterMinutes cs
  let (second, cs) ← leadingNumber 2 (← after (· == ':') cs)
  if second ≤ 60 then
    match cs with
    | '.' :: rest =>
      let digits := (rest.takeWhile Char.isDigit).length
      if digits = 0 then none else some (rest.drop digits)
    | _ => some cs
  else none

def isOffset (cs : List Char) : Bool :=
  cs = [] || cs = ['Z'] || cs = ['z']
    || ((after (fun c => c == '+' || c == '-') cs).bind afterMinutes = some [])

def isDate (cs : List Char) : Bool := afterDate cs = some []

/-- A time of day that may tell its distance from universal time. -/
def isZonedTime (cs : List Char) : Bool := (afterTime cs).any isOffset

/-- A date, a time of day, or both with a letter between them. -/
def isDateTime (cs : List Char) : Bool :=
  isDate cs || afterTime cs = some []
    || (((afterDate cs).bind (after fun c => c == 'T' || c == 't')).any isZonedTime)

/-! ## Reading -/

def isTruth (cs : List Char) : Bool := cs = "true".toList || cs = "false".toList

/-- A number, a date or a truth value at the beginning of a text: how many characters it has.
Between a date and a time there may be a blank. -/
def atomLength (cs : List Char) : Option Nat :=
  let word := cs.takeWhile isAtomChar
  match cs.drop word.length with
  | ' ' :: d :: rest =>
    if isDate word && d.isDigit then
      let time := (d :: rest).takeWhile isAtomChar
      if isZonedTime time then some (word.length + 1 + time.length) else none
    else whole word
  | _ => whole word
where
  whole (word : List Char) : Option Nat :=
    if isTruth word || isInteger word || isFloat word || isDateTime word then some word.length
    else none

end StyleSieve.Toml
