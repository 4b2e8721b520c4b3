import StyleSieve.Yaml.Node

/-!
# Documents of YAML

A text holds at most one document, with directives and a sign before it if need be.
-/

namespace StyleSieve.Yaml

/-- A document: its node, and the anchors by which aliases in it are understood. -/
structure Document where
  root : Node
  anchors : Anchors
deriving Repr

/-- What the directives of a document say. -/
structure Directives where
  hasVersion : Bool
  handles : Handles
deriving Repr, DecidableEq

/-- Reads directives; each version but 1.1 and 1.2 is refused, and each repetition. -/
def readDirectives (d : Directives) : List Token → Option (Directives × List Token)
  | .version major minor :: ts =>
    if d.hasVersion || major ≠ 1 || (minor ≠ 1 && minor ≠ 2) then none
    else readDirectives { d with hasVersion := true } ts
  | .tagHandle handle start :: ts =>
    if (d.handles.lookup handle).isSome then none
    else readDirectives { d with handles := (handle, start) :: d.handles } ts
  | ts => some (d, ts)

/-- After the document only signs of its end may follow. -/
def isOver (ts : List Token) : Bool := ts.all (· == .documentEnd)

/-- A document without a sign before it. -/
def readBareDocument (ts : List Token) : Option Document :=
  match readNode standardHandles true false .none ts with
  | none => none
  | some r => if isOver r.rest then some ⟨r.value, r.anchors⟩ else none

/-- A document after its sign. -/
def readContentOf (handles : Handles) (ts : List Token) : Option Document :=
  if isOver ts then some ⟨.empty, .none⟩
  else
    match readNode handles true false .none ts with
    | none => none
    | some r => if isOver r.rest then some ⟨r.value, r.anchors⟩ else none

/-- The one document of a text, or nothing if the text holds no document or more than one. A text
without tokens stands for an empty document. -/
def Document.parse (text : String) : Option Document :=
  match tokensOf text with
  | none => none
  | some [] => some ⟨.empty, .none⟩
  | some ts =>
    match readDirectives ⟨false, []⟩ ts with
    | none => none
    | some (d, .documentStart :: rest) => readContentOf (d.handles ++ standardHandles) rest
    | some (_, rest) => if rest.length < ts.length then none else readBareDocument ts

/-- The node that a node stands for. -/
def Document.resolve (d : Document) : Node → Option Node
  | .alias n => d.anchors.node? n
  | node => some node

end StyleSieve.Yaml
