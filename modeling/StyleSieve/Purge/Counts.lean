/-!
# Counters

What a purge has kept and removed, and the bytes that it has read and written.
-/

namespace StyleSieve.Purge

structure Counts where
  selectorsKept : Nat
  selectorsRemoved : Nat
  rulesetsRemoved : Nat
  fontFacesRemoved : Nat
  keyframesRemoved : Nat
  bytesIn : Nat
  bytesOut : Nat
deriving Repr, DecidableEq

namespace Counts

def zero : Counts := ⟨0, 0, 0, 0, 0, 0, 0⟩

/-- Counters added one by one. -/
def add (a b : Counts) : Counts :=
  { selectorsKept := a.selectorsKept + b.selectorsKept
    selectorsRemoved := a.selectorsRemoved + b.selectorsRemoved
    rulesetsRemoved := a.rulesetsRemoved + b.rulesetsRemoved
    fontFacesRemoved := a.fontFacesRemoved + b.fontFacesRemoved
    keyframesRemoved := a.keyframesRemoved + b.keyframesRemoved
    bytesIn := a.bytesIn + b.bytesIn
    bytesOut := a.bytesOut + b.bytesOut }

instance : Add Counts := ⟨add⟩

theorem add_def (a b : Counts) : a + b =
    ⟨a.selectorsKept + b.selectorsKept, a.selectorsRemoved + b.selectorsRemoved,
      a.rulesetsRemoved + b.rulesetsRemoved, a.fontFacesRemoved + b.fontFacesRemoved,
      a.keyframesRemoved + b.keyframesRemoved, a.bytesIn + b.bytesIn, a.bytesOut + b.bytesOut⟩ :=
  rfl

theorem add_comm (a b : Counts) : a + b = b + a := by
  simp only [add_def, Nat.add_comm]

theorem add_assoc (a b c : Counts) : a + b + c = a + (b + c) := by
  simp only [add_def, Nat.add_assoc]

/-- Counters are held in words of 64 bits. -/
def wordSize : Nat := Nat.pow 2 64

/-- The counters as words hold them. -/
def wrapped (c : Counts) : Counts :=
  { selectorsKept := c.selectorsKept % wordSize
    selectorsRemoved := c.selectorsRemoved % wordSize
    rulesetsRemoved := c.rulesetsRemoved % wordSize
    fontFacesRemoved := c.fontFacesRemoved % wordSize
    keyframesRemoved := c.keyframesRemoved % wordSize
    bytesIn := c.bytesIn % wordSize
    bytesOut := c.bytesOut % wordSize }

end Counts

end StyleSieve.Purge
