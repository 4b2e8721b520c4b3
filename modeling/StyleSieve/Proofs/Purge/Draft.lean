import StyleSieve.Proofs.Purge.Run

/-!
# Drafts

What a purge writes, told along the outline of a stylesheet instead of event by event. A draft names
for every output the event that it is written for, and tells the brackets of blocks from other text.
The definition covers every nesting of blocks, also at-rules inside the definition of a font. That a
purge writes what the draft of its stylesheet holds is shown elsewhere.
-/

namespace StyleSieve.Purge

open Css
open Text (sameAscii unquote slice)
open Usage (fontName)

/-! ## Verdicts -/

namespace Judge

/-- The selector can be read and its chain is included. -/
def keeps (j : Judge) (e : Event) : Bool :=
  match Selector.parse e.text with
  | .ok chain => j.index.includes chain
  | .error _ => false

/-- The definition of an animation that begins here is wanted. -/
def wantsAnimation (j : Judge) (head : Event) : Bool :=
  j.references.animationWanted j.index (unquote head.text)

def wantsFont (j : Judge) (family : String) : Bool := j.references.fontWanted j.index family

end Judge

/-- Some selector of a rule is kept. -/
def keepsRule (j : Judge) (earlier : List Event) (last : Event) : Bool :=
  (earlier ++ [last]).any j.keeps

theorem isEmpty_filter_keeps (j : Judge) (earlier : List Event) (last : Event) :
    ((earlier ++ [last]).filter j.keeps).isEmpty = !keepsRule j earlier last := by
  rw [keepsRule]
  induction earlier ++ [last] with
  | nil => rfl
  | cons e es ih => cases he : j.keeps e <;> simp_all

/-- A comment that asks to be kept. -/
def isKeptComment (e : Event) : Bool := e.data.startsWith "/*!" || e.data.startsWith "/*#"

/-! ## Marks and drafts -/

/-- An output with the event that it is written for. The brackets of a block belong to the event
that begins it. -/
inductive Mark where
  | text (owner : Event) (o : Output)
  | opens (owner : Event)
  | closes (owner : Event)
deriving Repr, DecidableEq

def Mark.output : Mark → Output
  | text _ o => o
  | opens _ => .text "\x7b"
  | closes _ => .close

/-- The definition of a font that is held back, and its family as far as it is known. -/
structure Held where
  marks : List Mark
  family : String
deriving Repr, DecidableEq

/-- A stylesheet that is being written: what is out, the conditional groups that stand around and
have not been opened, the outermost first, and the definition of a font that is held back. -/
structure Draft where
  out : List Mark
  pending : List Event
  held : Option Held
deriving Repr, DecidableEq

/-- What opens some conditional groups. -/
def openings (heads : List Event) : List Mark :=
  heads.flatMap fun e => [.text e (.text e.prelude), .opens e]

/-- What the selectors of a list leave; a comma is due if one was kept before. -/
def selectorMarks (comma : Bool) : List Event → List Mark
  | [] => []
  | e :: es =>
    (if comma then [.text e (.text ",")] else []) ++ .text e (.text e.text) :: selectorMarks true es

/-- The beginning of a block with a prelude. -/
def headMarks (head : Event) : List Mark := [.text head (.text head.prelude), .opens head]

namespace Draft

def start : Draft := ⟨[], [], none⟩

/-- Writes where the text belongs. -/
def put (d : Draft) (ms : List Mark) : Draft :=
  match d.held with
  | none => { d with out := d.out ++ ms }
  | some h => { d with held := some { h with marks := h.marks ++ ms } }

/-- Opens the groups around. Their heads go out even while a font is held back. -/
def openAll (d : Draft) : Draft := { d with out := d.out ++ openings d.pending, pending := [] }

def putInside (d : Draft) (ms : List Mark) : Draft := d.openAll.put ms

/-- The family that a declaration tells while a font is held back. -/
def hear (d : Draft) (e : Event) : Draft :=
  if sameAscii e.data "font-family" then
    { d with held := d.held.map ({ · with family := fontName e.text }) }
  else d

/-- The definition of a font ends. -/
def release (j : Judge) (head : Event) (d : Draft) : Draft :=
  match d.held with
  | none => d
  | some h =>
    if j.wantsFont h.family then { d with held := none }.putInside (h.marks ++ [Mark.closes head])
    else { d with held := none }

mutual

/-- Writes what is kept of a node. -/
def write (j : Judge) (source : String) : Node → Draft → Draft
  | .comment e, d =>
    if isKeptComment e then d.put [.text e (.text e.data), .text e (.text "\n")] else d
  | .declaration e, d => (d.hear e).put [.text e (.declaration e.data e.values)]
  | .statement e, d => d.putInside [.text e (.text e.prelude), .text e (.text ";")]
  | .ruleset earlier last body _, d =>
    let kept := (earlier ++ [last]).filter j.keeps
    if kept.isEmpty then d
    else
      (writeIn j source body (d.putInside (selectorMarks false kept ++ [.opens last]))).put
        [.closes last]
  | .block head body stop, d =>
    if isKeyframes head.atName then
      if j.wantsAnimation head then
        d.putInside [.text head (.text (slice source head.span.start stop.span.stop))]
      else d
    else if isConditional head.atName then
      let inner := writeIn j source body { d with pending := d.pending ++ [head] }
      if inner.pending.isEmpty then inner.put [.closes head]
      else { inner with pending := d.pending }
    else if isFontFace head.atName && d.held.isNone then
      (writeIn j source body { d with held := some ⟨headMarks head, ""⟩ }).release j head
    else (writeIn j source body (d.putInside (headMarks head))).put [.closes head]

/-- Writes what is kept of several nodes. -/
def writeIn (j : Judge) (source : String) : List Node → Draft → Draft
  | [], d => d
  | n :: ns, d => writeIn j source ns (write j source n d)

end

end Draft

/-- Nothing is told outside the definition of a font. -/
theorem Draft.hear_of_held {d : Draft} (h : d.held = none) (e : Event) : d.hear e = d := by
  rcases d with ⟨out, pending, held⟩
  simp_all [Draft.hear]

theorem held_putInside {d : Draft} (h : d.held = none) (ms : List Mark) :
    (d.putInside ms).held = none := by
  simp [Draft.putInside, Draft.openAll, Draft.put, h]

theorem held_putInside_some {d : Draft} {held : Held} (h : d.held = some held) (ms : List Mark) :
    (d.putInside ms).held = some { held with marks := held.marks ++ ms } := by
  simp [Draft.putInside, Draft.openAll, Draft.put, h]

/-- What is written for each node of a stylesheet, in order. -/
def marksOf (j : Judge) (source : String) : List Mark :=
  (Draft.writeIn j source (outline source) .start).out

end StyleSieve.Purge
