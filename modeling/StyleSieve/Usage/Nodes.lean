import StyleSieve.Markup.Document
import StyleSieve.Selector.Parse

/-!
# Nodes in use

A bag of compounds, taken from documents or from selectors that are always kept. A chain is included
if every compound of it is accepted by some node. This is found out in a single pass over the nodes,
which ends with the node that is accepted by the last compound left.
-/

namespace StyleSieve.Usage

open Selector

/-- Elements that documents offer, in the order in which they were found. -/
abbrev Nodes := List Compound

/-- A pass over the nodes: for each compound of the chain whether it has been found, and the number
of those that have not. -/
structure Search where
  found : List Bool
  pending : Nat
deriving Repr, DecidableEq

namespace Search

/-- Why a pass ends before the last node. -/
inductive Stop where
  /-- Every compound has been found. -/
  | complete
  /-- There is no such position, or the number of those left falls below zero. -/
  | fault
deriving Repr, DecidableEq

/-- No compound of so many has been found. -/
def start (count : Nat) : Search := ⟨List.replicate count false, count⟩

/-- A node is held against the compound at a position of the chain. -/
def visit (node : Compound) (s : Search) (place : Compound × Nat) : Except Stop Search :=
  match s.found[place.2]? with
  | none => .error .fault
  | some true => .ok s
  | some false =>
    if place.1.accepts node then
      match s.pending with
      | 0 => .error .fault
      | 1 => .error .complete
      | n + 1 => .ok ⟨s.found.set place.2 true, n⟩
    else .ok s

/-- A node is held against every compound of the chain. -/
def sweep (chain : Chain) (s : Search) (node : Compound) : Except Stop Search :=
  chain.zipIdx.foldlM (visit node) s

/-- The nodes are held against the chain in turn. -/
def pass (nodes : Nodes) (chain : Chain) : Except Stop Search :=
  nodes.foldlM (sweep chain) (start chain.length)

end Search

/-- Every compound of the chain, and there is one, is satisfied by some node. -/
def Nodes.includes (nodes : Nodes) (chain : Chain) : Bool :=
  match Search.pass nodes chain with
  | .error .complete => true
  | _ => false

/-! ## Presets -/

/-- A selector of a preset that cannot be read. -/
structure PresetError where
  selector : String
  cause : SelectorError
deriving Repr, DecidableEq

def PresetError.message (e : PresetError) : String :=
  "invalid selector " ++ Text.quoted e.selector ++ ": " ++ e.cause.message

/-- Elements that every document has. -/
def defaultPreset : List String := ["html", "head", "body"]

/-- The texts between commas, without blanks around them; those with nothing else are left out. -/
def listed (selectors : String) : List String :=
  ((selectors.toList.splitOn ',').map fun part => Text.trim (.ofList part)).filter (!·.isEmpty)

/-- The compounds of some selectors. -/
def nodesOfParts : List String → Except PresetError Nodes
  | [] => .ok []
  | s :: rest =>
    match parse s with
    | .error cause => .error ⟨s, cause⟩
    | .ok chain => (chain ++ ·) <$> nodesOfParts rest

/-- The compounds of lists of selectors. -/
def Nodes.ofSelectors (selectors : List String) : Except PresetError Nodes :=
  nodesOfParts (selectors.flatMap listed)

/-- The elements of several documents in order, or the first fault. -/
def Nodes.ofDocuments : List String → Except Markup.MarkupError Nodes
  | [] => .ok []
  | d :: ds =>
    match Markup.elements d with
    | .error e => .error e
    | .ok nodes => (nodes ++ ·) <$> ofDocuments ds

end StyleSieve.Usage
