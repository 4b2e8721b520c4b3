import StyleSieve.Purge.Counts
import StyleSieve.Purge.Emitter
import StyleSieve.Text.Slice
import StyleSieve.Usage.References

/-!
# What is kept of a stylesheet

The events of a stylesheet are followed one by one, each giving what is to be written. A rule goes
if none of its selectors is included; a conditional group is opened once something inside it is
kept; the definition of a font is held back until its family is known; the definition of an
animation is kept as it stands in the source, or not at all. What is written never depends on how
the sink fares.
-/

namespace StyleSieve.Purge

open Css Usage
open Text (sameAscii unquote slice)

/-- How the next event is to be taken. -/
inductive Mode where
  | keeping
  /-- Inside a removed rule, with so many rules open. -/
  | skipping (depth : Nat)
  /-- Inside the definition of an animation that begins at byte `start`, with so many at-rule blocks
  open. -/
  | keyframes (keep : Bool) (start depth : Nat)
deriving Repr, DecidableEq

/-- An open block of an at-rule. -/
inductive Block where
  /-- A conditional group that has not been written. -/
  | pending (prelude : String)
  | opened
  | fontFace
deriving Repr, DecidableEq

/-- The definition of a font: its outputs, last first, and its family as far as it is known. -/
structure FontFace where
  outputs : List Output
  family : String
deriving Repr, DecidableEq

/-- What is known between two events. The innermost block comes first. -/
structure State where
  mode : Mode
  blocks : List Block
  /-- A selector of the list being read has been kept. -/
  retained : Bool
  fontFace : Option FontFace
  counts : Counts
deriving Repr, DecidableEq

def State.initial (bytesIn : Nat) : State :=
  ⟨.keeping, [], false, none, { Counts.zero with bytesIn := bytesIn }⟩

/-- What decides over rules, fonts and animations. -/
structure Judge where
  index : Index
  references : References

/-- A state with what has to be written to get there. -/
abbrev Step := State × List Output

/-- The blocks with every pending one opened, and what opens them, the outermost first. -/
def openPending : List Block → List Block × List Output
  | [] => ([], [])
  | b :: bs =>
    let rest := openPending bs
    match b with
    | .pending prelude => (.opened :: rest.1, rest.2 ++ [.text prelude, .text "\x7b"])
    | _ => (b :: rest.1, rest.2)

namespace State

/-- Opens every pending block, since something inside is kept. -/
def openAll (s : State) : Step :=
  let opened := openPending s.blocks
  ({ s with blocks := opened.1 }, opened.2)

/-- Writes where the text belongs: into the definition of a font that is being held back, or out. -/
def put (s : State) (os : List Output) : Step :=
  match s.fontFace with
  | none => (s, os)
  | some face =>
    ({ s with fontFace := some { face with outputs := os.reverse ++ face.outputs } }, [])

/-- Opens every pending block and writes. -/
def putInside (s : State) (os : List Output) : Step :=
  let (s, before) := s.openAll
  let (s, after) := s.put os
  (s, before ++ after)

/-- A comment that is to be kept says so by its first character. -/
def comment (s : State) (e : Event) : Step :=
  if e.data.startsWith "/*!" || e.data.startsWith "/*#" then s.put [.text e.data, .text "\n"]
  else (s, [])

/-- A selector of a list. -/
def selector (j : Judge) (s : State) (e : Event) : Except SheetError Step :=
  match Selector.parse e.text with
  | .error cause => .error (.badSelector e.text cause)
  | .ok chain =>
    if j.index.includes chain then
      let counts := { s.counts with selectorsKept := s.counts.selectorsKept + 1 }
      let comma : List Output := if s.retained then [.text ","] else []
      let next := { s with retained := true, counts := counts }
      .ok (next.putInside (comma ++ [.text e.text]))
    else
      let counts := { s.counts with selectorsRemoved := s.counts.selectorsRemoved + 1 }
      .ok ({ s with counts := counts }, [])

/-- The last selector of a list: the rule is entered if any was kept, else removed. -/
def rulesetStart (j : Judge) (s : State) (e : Event) : Except SheetError Step :=
  match s.selector j e with
  | .error fault => .error fault
  | .ok (s, before) =>
    if s.retained then
      let (s, after) := { s with retained := false }.put [.text "\x7b"]
      .ok (s, before ++ after)
    else
      let counts := { s.counts with rulesetsRemoved := s.counts.rulesetsRemoved + 1 }
      .ok ({ s with mode := .skipping 1, counts := counts }, before)

/-- A declaration; inside the definition of a font it may tell the family. -/
def declaration (s : State) (e : Event) : Step :=
  let named := fun (face : FontFace) =>
    if sameAscii e.data "font-family" then { face with family := fontName e.text } else face
  { s with fontFace := s.fontFace.map named }.put [.declaration e.data e.values]

/-- The block of an at-rule begins. -/
def blockStart (j : Judge) (s : State) (e : Event) : Step :=
  if isKeyframes e.atName then
    let keep := j.references.animationWanted j.index (unquote e.text)
    let removed := s.counts.keyframesRemoved + if keep then 0 else 1
    ({ s with
      mode := .keyframes keep e.span.start 1
      counts := { s.counts with keyframesRemoved := removed } }, [])
  else if isConditional e.atName then
    ({ s with blocks := .pending e.prelude :: s.blocks }, [])
  else if isFontFace e.atName && s.fontFace.isNone then
    ({ s with
      fontFace := some ⟨[.text "\x7b", .text e.prelude], ""⟩
      blocks := .fontFace :: s.blocks }, [])
  else
    let (s, os) := s.putInside [.text e.prelude, .text "\x7b"]
    ({ s with blocks := .opened :: s.blocks }, os)

/-- The definition of a font ends. It is written in one piece if its family is wanted. -/
def fontFaceEnd (j : Judge) (s : State) (face : FontFace) : Step :=
  let s := { s with fontFace := none }
  if j.references.fontWanted j.index face.family then
    s.putInside [.text (textOf (face.outputs.reverse ++ [.close]))]
  else
    let counts := { s.counts with fontFacesRemoved := s.counts.fontFacesRemoved + 1 }
    ({ s with counts := counts }, [])

/-- The block of an at-rule ends. Nothing is left of a group that is still pending. -/
def blockEnd (j : Judge) (s : State) : Step :=
  let outer := { s with blocks := s.blocks.drop 1 }
  match s.blocks.head?, s.fontFace with
  | some (.pending _), _ => (outer, [])
  | some .fontFace, some face => outer.fontFaceEnd j face
  | some .fontFace, none => (outer, [])
  | _, _ => outer.put [.close]

/-- An event inside the definition of an animation, which is written when it ends. -/
def inKeyframes (s : State) (source : String) (keep : Bool) (start depth : Nat) (e : Event) :
    Step :=
  let depth := match e.kind with
    | .blockStart => depth + 1
    | .blockEnd => depth - 1
    | _ => depth
  if depth > 0 then ({ s with mode := .keyframes keep start depth }, [])
  else if keep then
    { s with mode := .keeping }.putInside [.text (slice source start e.span.stop)]
  else ({ s with mode := .keeping }, [])

/-- An event inside a removed rule. -/
def inRemoved (s : State) (depth : Nat) (e : Event) : State :=
  let depth := match e.kind with
    | .rulesetStart => depth + 1
    | .rulesetEnd => depth - 1
    | _ => depth
  { s with mode := if depth = 0 then .keeping else .skipping depth }

/-- An event that is not inside anything removed or copied. -/
def kept (j : Judge) (s : State) (e : Event) : Except SheetError Step :=
  match e.kind with
  | .comment => .ok (s.comment e)
  | .selector => s.selector j e
  | .rulesetStart => s.rulesetStart j e
  | .rulesetEnd => .ok (s.put [.close])
  | .declaration => .ok (s.declaration e)
  | .customDeclaration => .ok (s.declaration e)
  | .statement => .ok (s.putInside [.text e.prelude, .text ";"])
  | .blockStart => .ok (s.blockStart j e)
  | .blockEnd => .ok (s.blockEnd j)

def step (j : Judge) (source : String) (s : State) (e : Event) : Except SheetError Step :=
  match s.mode with
  | .keeping => s.kept j e
  | .skipping depth => .ok (s.inRemoved depth e, [])
  | .keyframes keep start depth => .ok (s.inKeyframes source keep start depth e)

end State

/-- What is to be written of a stylesheet, and the state after its last event or the error that ends
it. -/
structure Plan where
  outputs : List Output
  ending : Except SheetError State

/-- The plan for some events. -/
def planFrom (j : Judge) (source : String) (s : State) : List Event → Plan
  | [] => ⟨[], .ok s⟩
  | e :: es =>
    match s.step j source e with
    | .error fault => ⟨[], .error fault⟩
    | .ok (s, os) =>
      let rest := planFrom j source s es
      ⟨os ++ rest.outputs, rest.ending⟩

/-- The plan for a stylesheet. A fault of the grammar comes after all events before it. -/
def planOf (j : Judge) (source : String) : Plan :=
  let outcome := events source
  let plan := planFrom j source (.initial source.utf8ByteSize) outcome.events
  match plan.ending, outcome.error with
  | .ok _, some e => ⟨plan.outputs, .error (.malformed e)⟩
  | _, _ => plan

end StyleSieve.Purge
