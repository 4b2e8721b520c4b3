import StyleSieve.Css.Tree
import StyleSieve.Selector.Compound
import StyleSieve.Text.LowerCase

/-!
# Reading selectors

A selector is read in two steps: its token trees become parts, and the parts between separators are
collected into compounds. Arguments of functional pseudo-classes are passed over unread, and so are
comments wherever they stand.
-/

namespace StyleSieve.Selector

open Css

/-- Where in a selector an unexpected token stands. -/
inductive Place where
  | selector
  | afterDot
  | afterColon
  | attributeName
deriving Repr, DecidableEq

def Place.text : Place → String
  | selector => "in selector"
  | afterDot => "while parsing class selector"
  | afterColon => "after colon"
  | attributeName => "while parsing attribute name"

inductive SelectorError where
  | unexpectedToken (token : Token) (offset : Nat) (place : Place)
  | unexpectedEnd (offset : Nat) (place : Place)
deriving Repr, DecidableEq

def SelectorError.message : SelectorError → String
  | unexpectedToken t offset place =>
    "unexpected token " ++ t.describe ++ " at offset " ++ toString offset ++ " " ++ place.text
  | unexpectedEnd offset place =>
    "unexpected end of selector at offset " ++ toString offset ++ " " ++ place.text

/-- The smallest pieces of a selector. -/
inductive Part where
  | tag (name : String)
  | id (name : String)
  | anything
  | className (name : String)
  | attribute (name : String)
  | pseudoClass (name : String)
  | pseudoElement (name : String)
  /-- White space or a combinator. -/
  | separator
deriving Repr, DecidableEq

/-! ## Offsets -/

/-- A tree at byte `pos`. A fault in it is reported at `mark`, where reading stood before it. -/
structure Placed where
  mark : Nat
  pos : Nat
  tree : Tree

/-- Bytes read when a tree has been looked at: the inside of a block is left for later, except for
an attribute. -/
def readWidth (t : Tree) : Nat :=
  if t.token = .opening .square then t.width
  else match t with
    | .leaf l => Text.width l.raw
    | .block h _ _ => Text.width h.raw

/-- The trees that are not comments, and the mark at which the text ends. -/
def placed (mark pos : Nat) : List Tree → List Placed × Nat
  | [] => ([], mark)
  | t :: ts =>
    if t.token.isComment then placed mark (pos + t.width) ts
    else
      let rest := placed (pos + readWidth t) (pos + t.width) ts
      (⟨mark, pos, t⟩ :: rest.1, rest.2)

/-! ## Parts -/

/-- The name in an attribute block; only white space and comments may stand before it. -/
def attributeName (p : Placed) : Except SelectorError String :=
  match p.tree with
  | .leaf _ => .error (.unexpectedToken p.tree.token p.mark .selector)
  | .block h body _ =>
    let isGap := fun (t : Tree) => t.token.isWhitespace || t.token.isComment
    let offset := p.pos + Text.width h.raw + Tree.widthOf (body.takeWhile isGap)
    match body.dropWhile isGap with
    | [] => .error (.unexpectedEnd offset .attributeName)
    | t :: _ =>
      match t.token with
      | .ident name => .ok (Text.lowerCase name)
      | token => .error (.unexpectedToken token offset .attributeName)

/-- The parts of a selector that ends at `stop`. -/
def parts (stop : Nat) : List Placed → Except SelectorError (List Part)
  | [] => .ok []
  | p :: ps =>
    match p.tree.token with
    | .idHash name => (.id (Text.lowerCase name) :: ·) <$> parts stop ps
    | .hash name => (.id (Text.lowerCase name) :: ·) <$> parts stop ps
    | .ident name => (.tag (Text.lowerCase name) :: ·) <$> parts stop ps
    | .whitespace _ => (.separator :: ·) <$> parts stop ps
    | .delim '*' => (.anything :: ·) <$> parts stop ps
    | .delim '>' => (.separator :: ·) <$> parts stop ps
    | .delim '+' => (.separator :: ·) <$> parts stop ps
    | .delim '~' => (.separator :: ·) <$> parts stop ps
    | .delim '.' =>
      match ps with
      | [] => .error (.unexpectedEnd stop .afterDot)
      | q :: qs =>
        match q.tree.token with
        | .ident name => (.className (Text.lowerCase name) :: ·) <$> parts stop qs
        | token => .error (.unexpectedToken token q.mark .afterDot)
    | .colon =>
      match ps with
      | [] => .error (.unexpectedEnd stop .afterColon)
      | q :: qs =>
        match q.tree.token with
        | .ident name => (.pseudoClass (Text.lowerCase name) :: ·) <$> parts stop qs
        | .function name => (.pseudoClass (Text.lowerCase name) :: ·) <$> parts stop qs
        | .colon =>
          match qs with
          | [] => .error (.unexpectedEnd stop .afterColon)
          | r :: rs =>
            match r.tree.token with
            | .ident name => (.pseudoElement (Text.lowerCase name) :: ·) <$> parts stop rs
            | .function name => (.pseudoElement (Text.lowerCase name) :: ·) <$> parts stop rs
            | token => .error (.unexpectedToken token r.mark .afterColon)
        | token => .error (.unexpectedToken token q.mark .afterColon)
    | .opening .square =>
      match attributeName p with
      | .error e => .error e
      | .ok name => (.attribute name :: ·) <$> parts stop ps
    | token => .error (.unexpectedToken token p.mark .selector)

/-! ## Compounds -/

/-- Attributes whose presence says nothing lasting about a document. -/
def volatileAttributes : List String :=
  ["checked", "class", "disabled", "open", "readonly", "selected", "value"]

/-- A compound that asks for one part more; a later tag or id replaces an earlier one. -/
def Compound.add (c : Compound) : Part → Compound
  | .tag name => { c with tag := some name }
  | .id name => { c with id := some name }
  | .className name => { c with classes := c.classes.insert name }
  | .attribute name =>
    if volatileAttributes.contains name then c
    else { c with attributes := c.attributes.insert name }
  | .pseudoClass name => { c with pseudoClasses := c.pseudoClasses ++ [name] }
  | .pseudoElement name => { c with pseudoElements := c.pseudoElements ++ [name] }
  | .anything => c
  | .separator => c

/-- A compound as a chain, which is empty if the compound asks for nothing. -/
def Compound.kept (c : Compound) : Chain := if c.isUniversal then [] else [c]

/-- The compounds of some parts, of which those before the first have been added to `c`. -/
def compoundsFrom (c : Compound) : List Part → Chain
  | [] => c.kept
  | .separator :: ps => c.kept ++ compoundsFrom .universal ps
  | p :: ps => compoundsFrom (c.add p) ps

/-- The chain of some parts; parts that ask for nothing give the universal chain. -/
def chainOf (ps : List Part) : Chain :=
  match compoundsFrom .universal ps with
  | [] => [.universal]
  | c :: cs => c :: cs

/-- The chain of token trees. -/
def parseTrees (ts : List Tree) : Except SelectorError Chain :=
  let items := placed 0 0 ts
  chainOf <$> parts items.2 items.1

/-- The chain of a selector. -/
def parse (selector : String) : Except SelectorError Chain :=
  parseTrees (Tree.ofText selector.toList)

theorem chainOf_ne_nil (ps : List Part) : chainOf ps ≠ [] := by
  unfold chainOf
  split <;> simp

end StyleSieve.Selector
