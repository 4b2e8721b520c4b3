import StyleSieve.Pattern.CharSet

/-!
# Patterns

A pattern is matched against a text by following all ways at once: a mask says at which places of
the text the part of the pattern read so far may end, and each part of the pattern carries a mask on
to the next. No way is tried twice, so a repetition ends when it adds nothing.
-/

namespace StyleSieve.Pattern

open Text

/-- Where a word begins and ends around a place. The halves look to one side only. -/
inductive WordEdge where
  | either
  | neither
  | start
  | stop
  | startHalf
  | stopHalf
deriving Repr, DecidableEq

/-- What a pattern asks of a place rather than of a character. -/
inductive Look where
  | textStart
  | textEnd
  | lineStart
  | lineEnd
  /-- Lines that may also end with a carriage return. -/
  | returnStart
  | returnEnd
  | word (edge : WordEdge) (ascii : Bool)
deriving Repr, DecidableEq

end StyleSieve.Pattern

namespace StyleSieve

/-- What a text is searched for. -/
inductive Pattern where
  | empty
  | one (set : Pattern.CharSet)
  | look (l : Pattern.Look)
  | sequence (p q : Pattern)
  | choice (p q : Pattern)
  /-- At least `least` times, and at most `least + more` times if there is a bound. -/
  | repeated (p : Pattern) (least : Nat) (more : Option Nat)
deriving Repr, DecidableEq

end StyleSieve

namespace StyleSieve.Pattern

open Text

def WordEdge.holds (before after : Bool) : WordEdge → Bool
  | either => before != after
  | neither => before == after
  | start => !before && after
  | stop => before && !after
  | startHalf => !before
  | stopHalf => !after

/-- A place between two characters, of which either may be missing. -/
def Look.holds (before after : Option Char) : Look → Bool
  | textStart => before.isNone
  | textEnd => after.isNone
  | lineStart => before.isNone || before == some '\n'
  | lineEnd => after.isNone || after == some '\n'
  | returnStart =>
    before.isNone || before == some '\n' || (before == some '\r' && after != some '\n')
  | returnEnd =>
    after.isNone || after == some '\r' || (after == some '\n' && before != some '\r')
  | word edge ascii =>
    let inWord := fun (c : Option Char) =>
      c.elim false fun c => if ascii then isAsciiWord c else isWord c
    edge.holds (inWord before) (inWord after)

/-! ## Masks -/

/-- One flag for every place of a text, from its start to its end. -/
abbrev Mask := List Bool

/-- Places after a character of a set whose place before it is marked. -/
def advance (set : CharSet) (text : List Char) (mask : Mask) : Mask :=
  false :: List.zipWith (fun c marked => marked && set.has c) text mask

/-- The characters before and after each place. -/
def places : Option Char → List Char → List (Option Char × Option Char)
  | before, [] => [(before, none)]
  | before, c :: cs => (before, some c) :: places (some c) cs

def merge (m n : Mask) : Mask := List.zipWith (· || ·) m n

/-- A step taken `n` times, or until it changes nothing. -/
def iterate (step : Mask → Mask) : Nat → Mask → Mask
  | 0, m => m
  | n + 1, m =>
    let next := step m
    if next = m then m else iterate step n next

/-- The places at which a pattern may end that begins at the marked ones. -/
def follow (text : List Char) : Pattern → Mask → Mask
  | .empty, m => m
  | .one set, m => advance set text m
  | .look l, m =>
    List.zipWith (fun (before, after) marked => marked && l.holds before after)
      (places none text) m
  | .sequence p q, m => follow text q (follow text p m)
  | .choice p q, m => merge (follow text p m) (follow text q m)
  | .repeated p least more, m =>
    let grow := fun m => merge m (follow text p m)
    iterate grow (more.getD (text.length + 1)) (iterate (follow text p) least m)

/-- Some part of the text matches. -/
def finds (p : Pattern) (s : String) : Bool :=
  let text := s.toList
  (follow text p (true :: text.map fun _ => true)).any id

/-! ## Size -/

/-- The most that a pattern may take. -/
def sizeLimit : Nat := 10 * Nat.pow 2 20

/-- What one state of a matching machine takes. -/
def stateSize : Nat := 32

/-- What the states for one character of a set take. -/
def CharSet.size (s : CharSet) : Nat :=
  if s.isAscii then if s.rangeCount ≤ 1 then stateSize else stateSize + 8 * s.rangeCount
  else 3 * stateSize + 64 * s.rangeCount

/-- What a machine for the pattern takes that holds every repetition written out. It is estimated
from the number of states and of ranges, so that it only decides for certain over patterns far from
the limit. -/
def size : Pattern → Nat
  | empty => stateSize
  | one set => set.size
  | look _ => stateSize
  | sequence p q => p.size + q.size
  | choice p q => p.size + q.size + 8
  | repeated p least more =>
    least * p.size + (match more with
      | none => (if least = 0 then p.size else 0) + stateSize + 8
      | some n => n * (p.size + stateSize + 8) + stateSize)

end StyleSieve.Pattern
