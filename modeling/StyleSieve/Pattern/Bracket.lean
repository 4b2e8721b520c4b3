import StyleSieve.Pattern.Escape

/-!
# Bracketed classes

A class between brackets is a union of characters, ranges and classes; operators between unions are
taken from left to right. Open brackets are kept on a stack. A class is read with its depth, since
brackets in brackets count as nesting of the pattern.
-/

namespace StyleSieve.Pattern

open Text

inductive SetOperator where
  | meet
  | less
  | apart
deriving Repr, DecidableEq

def SetOperator.apply (s t : CharSet) : SetOperator → CharSet
  | meet => .meet s t
  | less => .less s t
  | apart => .apart s t

/-- A set with the depth of the classes and operators that make it up. -/
structure Nested where
  set : CharSet
  depth : Nat

/-- A class whose bracket is open: what stands before its last operator, and the union after it
with the number of its members and the deepest of them. -/
structure OpenClass where
  negated : Bool
  pending : Option (Nested × SetOperator)
  union : CharSet
  count : Nat
  deepest : Nat

/-- A class with nothing in it yet. -/
def OpenClass.empty (negated : Bool) : OpenClass := ⟨negated, none, .none, 0, 0⟩

/-- The set with letter case put aside if it is not to count. -/
def Flags.caseClosed (f : Flags) (s : CharSet) : CharSet :=
  if f.ignoreCase then if f.unicode then .anyCase s else .anyAsciiCase s else s

/-- A set or its complement, for which the whole of the characters must count. -/
def Flags.negate (f : Flags) (negated : Bool) (s : CharSet) : Option CharSet :=
  if !negated then some s else if f.unicode then some (.except s) else none

/-- The union; several members nest one level deeper. -/
def OpenClass.united (o : OpenClass) : Nested :=
  ⟨o.union, if o.count ≤ 1 then o.deepest else o.deepest + 1⟩

/-- The last operator applied to what stands around it. -/
def OpenClass.combined (f : Flags) (o : OpenClass) : Nested :=
  match o.pending with
  | none => o.united
  | some (n, op) =>
    ⟨op.apply (f.caseClosed n.set) (f.caseClosed o.union), max n.depth o.united.depth + 1⟩

def OpenClass.add (o : OpenClass) (n : Nested) : OpenClass :=
  { o with
    union := .join o.union n.set
    count := o.count + 1
    deepest := max o.deepest n.depth }

def OpenClass.addChar (o : OpenClass) (c : Char) : OpenClass := o.add ⟨.one c, 0⟩

def OpenClass.operator (f : Flags) (o : OpenClass) (op : SetOperator) : OpenClass :=
  { OpenClass.empty o.negated with pending := some (o.combined f, op) }

/-- The set of a class whose bracket closes. -/
def OpenClass.closed (f : Flags) (o : OpenClass) : Option Nested :=
  let inside := o.combined f
  (f.negate o.negated (f.caseClosed inside.set)).map fun s => ⟨s, inside.depth + 1⟩

/-- A member of a class: a character with its number, or a set. -/
inductive Member where
  | char (c : Char)
  | set (s : CharSet)

/-- A character that may stand in a class; where only ASCII counts, it must be of ASCII. -/
def memberChar (f : Flags) (c : Char) : Option Member :=
  if f.unicode || c.toNat < 0x80 then some (.char c) else none

/-- The first member of a text. -/
def readMember (f : Flags) : List Char → Option (Member × List Char)
  | [] => none
  | '\\' :: cs => do
    let (e, rest) ← readEscape f cs
    match e with
    | .char c => (memberChar f c).map (·, rest)
    | .byte c => (memberChar f c).map (·, rest)
    | .set s => some (.set s, rest)
    | .look _ => none
  | c :: cs => (memberChar f c).map (·, cs)

/-- A hyphen is no sign of a range before a bracket that closes or before another hyphen. -/
def endsRange (f : Flags) (cs : List Char) : Bool :=
  match f.skip cs with
  | [] => false
  | c :: _ => c == ']' || c == '-'

/-- A member, or a range of characters between two members. -/
def readRange (f : Flags) (cs : List Char) : Option (CharSet × List Char) := do
  let (first, rest) ← readMember f cs
  let single := match first with
    | .char c => CharSet.one c
    | .set s => s
  match f.skip rest with
  | '-' :: more =>
    if endsRange f more then some (single, '-' :: more)
    else
      let (last, rest) ← readMember f (f.skip more)
      match first, last with
      | .char a, .char b =>
        if a.toNat ≤ b.toNat then some (.ranges [(a.toNat, b.toNat)], rest) else none
      | _, _ => none
  | rest => some (single, rest)

/-- A class of ASCII between colons and brackets; the text begins after the first bracket. -/
def readNamed (f : Flags) : List Char → Option (Option CharSet × List Char)
  | ':' :: cs =>
    let negated := cs.head? == some '^'
    let body := if negated then cs.drop 1 else cs
    let name := body.takeWhile (· != ':')
    match body.drop name.length with
    | ':' :: ']' :: rest =>
      match asciiClasses.find? fun (n, _) => n.toList == name with
      | some (_, rs) => some (f.negate negated (f.caseClosed (.ranges rs)), rest)
      | none => none
    | _ => none
  | _ => none

/-- The members at the head of a class that would mean something else further on: hyphens, or else
a closing bracket. -/
def leading (f : Flags) (o : OpenClass) (fresh : Bool) : List Char → OpenClass × List Char
  | [] => (o, [])
  | c :: cs =>
    if c == '-' then leading f (o.addChar c) false cs
    else if c == ']' && fresh then (o.addChar c, cs)
    else if f.spaced && isBlank c then leading f o fresh cs
    else (o, c :: cs)

/-- The class after an opening bracket; a sign of negation may come first. -/
def openClass (f : Flags) (cs : List Char) : OpenClass × List Char :=
  match f.skip cs with
  | '^' :: body => leading f (.empty true) true (f.skip body)
  | body => leading f (.empty false) true body

/-- One step in a class: the open classes after it, or the set if the outermost has closed. -/
inductive ClassStep where
  | inside (classes : List OpenClass) (rest : List Char)
  | done (n : Nested) (rest : List Char)

def stepClass (f : Flags) (o : OpenClass) (outer : List OpenClass) :
    List Char → Option ClassStep
  | [] => none
  | '[' :: cs =>
    match readNamed f cs with
    | some (some s, rest) => some (.inside (o.add ⟨s, 0⟩ :: outer) rest)
    | some (none, _) => none
    | none =>
      let (inner, rest) := openClass f cs
      some (.inside (inner :: o :: outer) rest)
  | ']' :: cs => do
    let n ← o.closed f
    match outer with
    | [] => some (.done n cs)
    | p :: outer => some (.inside (p.add n :: outer) cs)
  | '&' :: '&' :: cs => some (.inside (o.operator f .meet :: outer) cs)
  | '-' :: '-' :: cs => some (.inside (o.operator f .less :: outer) cs)
  | '~' :: '~' :: cs => some (.inside (o.operator f .apart :: outer) cs)
  | cs => do
    let (s, rest) ← readRange f cs
    some (.inside (o.add ⟨s, 0⟩ :: outer) rest)

/-- Reads the open classes to their end. A step that takes nothing from the text ends in failure. -/
def readClasses (f : Flags) (classes : List OpenClass) (cs : List Char) :
    Option (Nested × List Char) :=
  match classes with
  | [] => none
  | o :: outer =>
    match stepClass f o outer (f.skip cs) with
    | none => none
    | some (.done n rest) => some (n, rest)
    | some (.inside classes rest) =>
      if rest.length < cs.length then readClasses f classes rest else none
termination_by cs.length

/-- The class after an opening bracket. -/
def readClass (f : Flags) (cs : List Char) : Option (Nested × List Char) :=
  let (o, rest) := openClass f cs
  if rest.isEmpty then none else readClasses f [o] rest

end StyleSieve.Pattern
