import StyleSieve.Text.Folded
import StyleSieve.Text.WordChar
import StyleSieve.Text.Blank

/-!
# Sets of characters

What a pattern asks of a single character. A set is a term, so that its complement and its closure
under letter case need no table of their own.
-/

namespace StyleSieve.Pattern

open Text

inductive CharSet where
  | ranges (rs : Ranges)
  | except (s : CharSet)
  | join (s t : CharSet)
  | meet (s t : CharSet)
  /-- All characters that differ only in case from a member. -/
  | anyCase (s : CharSet)
  /-- The same for the letters of ASCII alone. -/
  | anyAsciiCase (s : CharSet)
deriving Repr, DecidableEq

/-- The characters that differ from this one at most in case. -/
def variants (c : Char) : List Char :=
  let least := (folded c).toNat
  Char.ofNat least :: foldRuns.filterMap fun (lo, hi, step, first) =>
    if first ≤ least && least - first ≤ hi - lo && (least - first) % step == 0 then
      some (Char.ofNat (lo + (least - first)))
    else none

namespace CharSet

def has : CharSet → Char → Bool
  | ranges rs, c => rs.has c
  | except s, c => !s.has c
  | join s t, c => s.has c || t.has c
  | meet s t, c => s.has c && t.has c
  | anyCase s, c => (variants c).any s.has
  | anyAsciiCase s, c => s.has c || s.has c.toLower || s.has c.toUpper

def one (c : Char) : CharSet := ranges [(c.toNat, c.toNat)]

def none : CharSet := ranges []

def all : CharSet := ranges [(0, 0x10FFFF)]

def ofList (l : List Ranges) : CharSet := ranges l.flatten

/-- The members of one set that are not in another. -/
def less (s t : CharSet) : CharSet := meet s (except t)

/-- The members of just one of two sets. -/
def apart (s t : CharSet) : CharSet := join (less s t) (less t s)

/-- Some estimate of the number of ranges that make up a set. -/
def rangeCount : CharSet → Nat
  | ranges rs => rs.length
  | except s => s.rangeCount + 1
  | join s t => s.rangeCount + t.rangeCount
  | meet s t => s.rangeCount + t.rangeCount
  | anyCase s => 2 * s.rangeCount
  | anyAsciiCase s => 2 * s.rangeCount

/-- Every range lies within ASCII. -/
def isAscii : CharSet → Bool
  | ranges rs => rs.all fun r => r.2 < 0x80
  | except _ => false
  | join s t => s.isAscii && t.isAscii
  | meet s t => s.isAscii || t.isAscii
  | anyCase s => s.isAscii
  | anyAsciiCase s => s.isAscii

@[simp] theorem has_one (c d : Char) : (one c).has d = (c == d) := by
  simp only [one, has, Ranges.has, List.any_cons, List.any_nil, Bool.or_false]
  rw [Bool.eq_iff_iff, Bool.and_eq_true, decide_eq_true_eq, decide_eq_true_eq, beq_iff_eq]
  constructor
  · rintro ⟨h, h'⟩
    exact Char.toNat_inj.1 (Nat.le_antisymm h h')
  · rintro rfl
    exact ⟨Nat.le_refl _, Nat.le_refl _⟩

@[simp] theorem has_none (c : Char) : none.has c = false := rfl

end CharSet

/-! ## Classes with letters of their own -/

def digits : CharSet := .ranges Category.decimal

def asciiDigits : CharSet := .ranges [(0x30, 0x39)]

def spaces : CharSet := .ranges blanks

def asciiSpaces : CharSet := .ranges [(0x9, 0xD), (0x20, 0x20)]

/-- The characters of `Text.isWord`. -/
def wordChars : CharSet :=
  .ofList [alphabetic, Category.nonspacing, Category.spacing, Category.enclosing,
    Category.decimal, Category.connector, joiners]

def asciiWordChars : CharSet := .ranges [(0x30, 0x39), (0x41, 0x5A), (0x5F, 0x5F), (0x61, 0x7A)]

/-- The classes that stand in brackets under a name between colons. -/
def asciiClasses : List (String × Ranges) := [
  ("alnum", [(0x30, 0x39), (0x41, 0x5A), (0x61, 0x7A)]),
  ("alpha", [(0x41, 0x5A), (0x61, 0x7A)]),
  ("ascii", [(0x0, 0x7F)]),
  ("blank", [(0x9, 0x9), (0x20, 0x20)]),
  ("cntrl", [(0x0, 0x1F), (0x7F, 0x7F)]),
  ("digit", [(0x30, 0x39)]),
  ("graph", [(0x21, 0x7E)]),
  ("lower", [(0x61, 0x7A)]),
  ("print", [(0x20, 0x7E)]),
  ("punct", [(0x21, 0x2F), (0x3A, 0x40), (0x5B, 0x60), (0x7B, 0x7E)]),
  ("space", [(0x9, 0xD), (0x20, 0x20)]),
  ("upper", [(0x41, 0x5A)]),
  ("word", [(0x30, 0x39), (0x41, 0x5A), (0x5F, 0x5F), (0x61, 0x7A)]),
  ("xdigit", [(0x30, 0x39), (0x41, 0x46), (0x61, 0x66)])]

end StyleSieve.Pattern
