import StyleSieve.Yaml.Lexer

/-!
# Nodes of YAML

A document is a tree of texts, sequences and mappings. A node may carry an anchor, by which aliases
stand for it; an alias keeps the number of its anchor, since the node that it stands for may be one
that it lies in.
-/

namespace StyleSieve.Yaml

inductive Node where
  | alias (anchor : Nat)
  /-- A text, whether it is written without quotes, and its tag. -/
  | scalar (plain : Bool) (tag : Option String) (text : String)
  | sequence (items : List Node)
  | mapping (entries : List (Node × Node))
deriving Repr

/-- What stands where nothing is written. -/
def Node.empty : Node := .scalar true none ""

/-! ## Anchors -/

/-- The anchors of a document. -/
structure Anchors where
  /-- The number that each name has at present. -/
  numbers : List (String × Nat)
  /-- The numbers of all anchors, last first. -/
  given : List Nat
  /-- The nodes that have ended, by the place of their anchors in the document. -/
  nodes : List (Nat × Node)
deriving Repr

namespace Anchors

def none : Anchors := ⟨[], [], []⟩

def number? (a : Anchors) (name : String) : Option Nat := a.numbers.lookup name

/-- An anchor gets the number of names known before it. A name that is anchored again is still one
name, so that two anchors may come to share a number. -/
def add (a : Anchors) (name : String) : Anchors :=
  let n := a.numbers.length
  ⟨(name, n) :: a.numbers.filter (·.1 != name), n :: a.given, a.nodes⟩

/-- The node that a number stands for: the last one that was given it. -/
def node? (a : Anchors) (number : Nat) : Option Node :=
  match a.given.idxOf? number with
  | .none => .none
  | some k => a.nodes.lookup (a.given.length - 1 - k)

end Anchors

/-! ## Properties of nodes -/

/-- What handles of tags stand for. -/
abbrev Handles := List (String × String)

def standardHandles : Handles := [("!", "!"), ("!!", "tag:yaml.org,2002:")]

/-- The tag that a name stands for. -/
def TagName.resolve (t : TagName) (handles : Handles) : Option String :=
  if t.handle.isEmpty then some t.suffix else (· ++ t.suffix) <$> handles.lookup t.handle

/-- The anchor and the tag before a node. -/
structure Properties where
  anchor : Option String
  tag : Option TagName
deriving Repr, DecidableEq

def Properties.isNone (p : Properties) : Bool := p.anchor.isNone && p.tag.isNone

/-- Properties in either order, each at most once. -/
def readProperties : List Token → Properties × List Token
  | .anchor a :: .tag t :: ts => (⟨some a, some t⟩, ts)
  | .anchor a :: ts => (⟨some a, none⟩, ts)
  | .tag t :: .anchor a :: ts => (⟨some a, some t⟩, ts)
  | .tag t :: ts => (⟨none, some t⟩, ts)
  | ts => (⟨none, none⟩, ts)

theorem length_readProperties_le (ts : List Token) :
    (readProperties ts).2.length ≤ ts.length := by
  unfold readProperties
  split <;> simp <;> omega

theorem length_readProperties_lt (ts : List Token) (h : (readProperties ts).1.isNone = false) :
    (readProperties ts).2.length < ts.length := by
  unfold readProperties at h ⊢
  split at h
  · simp only [List.length_cons]
    omega
  · simp
  · simp only [List.length_cons]
    omega
  · simp
  · exact absurd h (by simp [Properties.isNone])

/-! ## Trees -/

/-- Something read from fewer tokens than `bound`, the anchors up to its end, and the tokens after
it. -/
structure Read (α : Type) (bound : Nat) where
  value : α
  anchors : Anchors
  rest : List Token
  shorter : rest.length < bound

namespace Read

variable {α β : Type} {m n : Nat}

def widen (r : Read α m) (h : m ≤ n) : Read α n :=
  ⟨r.value, r.anchors, r.rest, Nat.lt_of_lt_of_le r.shorter h⟩

def map (f : α → β) (r : Read α n) : Read β n := ⟨f r.value, r.anchors, r.rest, r.shorter⟩

/-- The node is the one of an anchor among its properties, which was added after `before`
others. -/
def finish (p : Properties) (before : Nat) (r : Read Node n) : Read Node n :=
  if p.anchor.isNone then r
  else ⟨r.value, { r.anchors with nodes := (before, r.value) :: r.anchors.nodes }, r.rest,
    r.shorter⟩

end Read

/-- Tokens before which a part of a collection is left out. -/
abbrev Stops := List Token

def Stops.hold (stops : Stops) (ts : List Token) : Bool := ts.head?.any stops.contains

def entryStops : Stops := [.entry, .blockEnd]
def bareStops : Stops := [.entry, .key, .value, .blockEnd]
def blockStops : Stops := [.key, .value, .blockEnd]
def itemStops : Stops := [.comma, .flowSequenceEnd]
def flowStops : Stops := [.comma, .flowMappingEnd]

/-- The tokens with which a node begins that has no properties. In flow collections there are no
block collections. A `bare` sequence has its dashes in the column of the mapping around it. -/
def beginsContent (block bare : Bool) : List Token → Bool
  | .scalar .. :: _ | .flowSequence :: _ | .flowMapping :: _ => true
  | .blockSequence :: _ | .blockMapping :: _ => block
  | .entry :: _ => bare
  | _ => false

/-- The tokens of the next part of a flow collection: but for the first one, a comma comes before
it. -/
def nextPart (first : Bool) (ts : List Token) : Option (List Token) :=
  if first then some ts
  else
    match ts with
    | .comma :: rest => some rest
    | _ => none

theorem length_nextPart_le {first : Bool} {ts rest : List Token}
    (h : nextPart first ts = some rest) : rest.length ≤ ts.length := by
  unfold nextPart at h
  split at h
  · simp_all
  · split at h
    · obtain rfl := Option.some.inj h
      simp
    · exact absurd h (by simp)

section
variable (handles : Handles)

mutual

/-- An alias, or a node with its properties. -/
def readNode (block bare : Bool) (a : Anchors) (ts : List Token) :
    Option (Read Node ts.length) :=
  match ts with
  | .alias name :: rest => (⟨.alias ·, a, rest, by simp⟩) <$> a.number? name
  | ts =>
    match hp : readProperties ts with
    | (p, rest) =>
      have le : rest.length ≤ ts.length := by simpa [hp] using length_readProperties_le ts
      match p.tag.mapM (·.resolve handles) with
      | none => none
      | some tag =>
        let inner := p.anchor.elim a a.add
        if beginsContent block bare rest then
          (fun r => (r.finish p a.given.length).widen le) <$> readContent tag inner rest
        else if h : p.isNone then none
        else
          have lt : rest.length < ts.length := by
            have := length_readProperties_lt ts
            simp only [hp] at this
            exact this (by simpa using h)
          some (Read.finish p a.given.length ⟨.scalar true tag "", inner, rest, lt⟩)
termination_by (ts.length, 1)
decreasing_by
  rcases Nat.lt_or_eq_of_le le with h | h
  · exact Prod.Lex.left _ _ h
  · rw [h]
    exact Prod.Lex.right _ (by omega)

/-- What follows the properties of a node. -/
def readContent (tag : Option String) (a : Anchors) (ts : List Token) :
    Option (Read Node ts.length) :=
  match ts with
  | .scalar plain text :: rest => some ⟨.scalar plain tag text, a, rest, by simp⟩
  | .flowSequence :: rest =>
    (fun r => (r.map .sequence).widen (by simp)) <$> readItems true a rest
  | .flowMapping :: rest =>
    (fun r => (r.map .mapping).widen (by simp)) <$> readPairs true a rest
  | .blockSequence :: rest =>
    (fun r => (r.map .sequence).widen (by simp)) <$> readEntries a rest
  | .blockMapping :: rest =>
    (fun r => (r.map .mapping).widen (by simp)) <$> readBlockPairs a rest
  | .entry :: rest => (fun r => (r.map .sequence).widen (by simp)) <$> readBare a rest
  | _ => none
termination_by (ts.length, 0)
decreasing_by all_goals exact Prod.Lex.left _ _ (by simp)

/-- A node, or nothing before certain tokens. -/
def readPart (stops : Stops) (block bare : Bool) (a : Anchors) (ts : List Token) :
    Option (Read Node (ts.length + 1)) :=
  if stops.hold ts then some ⟨.empty, a, ts, by simp⟩
  else (·.widen (by simp)) <$> readNode block bare a ts
termination_by (ts.length, 2)
decreasing_by exact Prod.Lex.right _ (by omega)

/-- The value of a key, if there is a sign for it. -/
def readValue (stops : Stops) (block bare : Bool) (a : Anchors) (ts : List Token) :
    Option (Read Node (ts.length + 1)) :=
  match ts with
  | .value :: rest => (·.widen (by simp)) <$> readPart stops block bare a rest
  | ts => some ⟨.empty, a, ts, by simp⟩
termination_by (ts.length, 0)
decreasing_by exact Prod.Lex.left _ _ (by simp)

/-- The parts of a block sequence up to its end. -/
def readEntries (a : Anchors) (ts : List Token) : Option (Read (List Node) ts.length) :=
  match ts with
  | .entry :: rest =>
    match readPart entryStops true false a rest with
    | none => none
    | some r =>
      have := r.shorter
      (fun s => (s.map (r.value :: ·)).widen (by simp; omega)) <$> readEntries r.anchors r.rest
  | .blockEnd :: rest => some ⟨[], a, rest, by simp⟩
  | _ => none
termination_by (ts.length, 0)
decreasing_by all_goals exact Prod.Lex.left _ _ (by simp; try omega)

/-- The parts of a bare sequence after its first dash. -/
def readBare (a : Anchors) (ts : List Token) : Option (Read (List Node) (ts.length + 1)) :=
  match readPart bareStops true false a ts with
  | none => none
  | some r =>
    have := r.shorter
    match hr : r.rest with
    | .entry :: rest =>
      have : rest.length + 1 = r.rest.length := by simp [hr]
      (fun s => (s.map (r.value :: ·)).widen (by omega)) <$> readBare r.anchors rest
    | _ => some ⟨[r.value], r.anchors, r.rest, r.shorter⟩
termination_by (ts.length, 3)
decreasing_by
  · exact Prod.Lex.right _ (by omega)
  · exact Prod.Lex.left _ _ (by omega)

/-- The pairs of a block mapping up to its end. -/
def readBlockPairs (a : Anchors) (ts : List Token) :
    Option (Read (List (Node × Node)) ts.length) :=
  match ts with
  | .key :: rest =>
    match readPart blockStops true true a rest with
    | none => none
    | some k =>
      have := k.shorter
      match readValue blockStops true true k.anchors k.rest with
      | none => none
      | some v =>
        have := v.shorter
        (fun s => (s.map ((k.value, v.value) :: ·)).widen (by simp; omega)) <$>
          readBlockPairs v.anchors v.rest
  | .blockEnd :: rest => some ⟨[], a, rest, by simp⟩
  | _ => none
termination_by (ts.length, 0)
decreasing_by all_goals exact Prod.Lex.left _ _ (by simp; try omega)

/-- The parts of a flow sequence up to its end. A key in it begins a mapping of one pair; if the
key is left out, the token after its sign is dropped with it. -/
def readItems (first : Bool) (a : Anchors) (ts : List Token) :
    Option (Read (List Node) ts.length) :=
  match ts with
  | .flowSequenceEnd :: rest => some ⟨[], a, rest, by simp⟩
  | ts =>
    match hn : nextPart first ts with
    | none => none
    | some part =>
      have le := length_nextPart_le hn
      match part with
      | .flowSequenceEnd :: rest => some ⟨[], a, rest, by simp at le; omega⟩
      | .key :: rest =>
        have lt : rest.length < ts.length := by simp at le; omega
        let left := Stops.hold (.value :: itemStops) rest
        have drop : (rest.drop 1).length < rest.length + 1 := by
          simp only [List.length_drop]
          omega
        let key : Option (Read Node (rest.length + 1)) :=
          if left = true then some ⟨.empty, a, rest.drop 1, drop⟩
          else Option.map (·.widen (Nat.le_succ _)) (readNode false false a rest)
        match key with
        | none => none
        | some k =>
          have lk := k.shorter
          match readValue itemStops false false k.anchors k.rest with
          | none => none
          | some v =>
            have lv := v.shorter
            (fun s => (s.map (.mapping [(k.value, v.value)] :: ·)).widen (by omega)) <$>
              readItems false v.anchors v.rest
      | t :: rest =>
        match readNode false false a (t :: rest) with
        | none => none
        | some r =>
          have lr := r.shorter
          (fun s => (s.map (r.value :: ·)).widen (by omega)) <$> readItems false r.anchors r.rest
      | [] => none
termination_by (ts.length, 3)
decreasing_by
  · exact Prod.Lex.left _ _ (by omega)
  · exact Prod.Lex.left _ _ (by omega)
  · exact Prod.Lex.left _ _ (by omega)
  · rcases Nat.lt_or_eq_of_le le with h | h
    · exact Prod.Lex.left _ _ h
    · rw [h]
      exact Prod.Lex.right _ (by omega)
  · exact Prod.Lex.left _ _ (by omega)

/-- The pairs of a flow mapping up to its end. A part that is no key has no value. -/
def readPairs (first : Bool) (a : Anchors) (ts : List Token) :
    Option (Read (List (Node × Node)) ts.length) :=
  match ts with
  | .flowMappingEnd :: rest => some ⟨[], a, rest, by simp⟩
  | ts =>
    match hn : nextPart first ts with
    | none => none
    | some part =>
      have le := length_nextPart_le hn
      match part with
      | .flowMappingEnd :: rest => some ⟨[], a, rest, by simp at le; omega⟩
      | .key :: rest =>
        have lt : rest.length < ts.length := by simp at le; omega
        match readPart (.value :: flowStops) false false a rest with
        | none => none
        | some k =>
          have lk := k.shorter
          match readValue flowStops false false k.anchors k.rest with
          | none => none
          | some v =>
            have lv := v.shorter
            (fun s => (s.map ((k.value, v.value) :: ·)).widen (by omega)) <$>
              readPairs false v.anchors v.rest
      | t :: rest =>
        match readNode false false a (t :: rest) with
        | none => none
        | some r =>
          have lr := r.shorter
          (fun s => (s.map ((r.value, .empty) :: ·)).widen (by omega)) <$>
            readPairs false r.anchors r.rest
      | [] => none
termination_by (ts.length, 3)
decreasing_by
  · exact Prod.Lex.left _ _ (by omega)
  · exact Prod.Lex.left _ _ (by omega)
  · exact Prod.Lex.left _ _ (by omega)
  · rcases Nat.lt_or_eq_of_le le with h | h
    · exact Prod.Lex.left _ _ h
    · rw [h]
      exact Prod.Lex.right _ (by omega)
  · exact Prod.Lex.left _ _ (by omega)

end

end

end StyleSieve.Yaml
