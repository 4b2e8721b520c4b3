import StyleSieve.Yaml.Scalar
import StyleSieve.Yaml.Token

/-!
# Reading tokens of YAML

Block collections have no brackets: their tokens follow from the columns in which things stand. A
key without a sign is known only by the colon after it, so its place among the tokens is kept for
as long as a colon may come.
-/

namespace StyleSieve.Yaml

/-- Something that turns out to be a key if a colon follows. -/
structure PossibleKey where
  mark : Mark
  /-- It stands where only a key can. -/
  required : Bool
  /-- The number of tokens before it. -/
  before : Nat
deriving Repr, DecidableEq

/-- A colon may follow on the same line, within a thousand and twenty-four characters. -/
def PossibleKey.isStale (k : PossibleKey) (m : Mark) : Bool :=
  k.mark.line < m.line || k.mark.column + 1024 < m.column

/-- What has been read up to a mark. -/
structure Lexer where
  mark : Mark
  /-- The tokens, last first. -/
  tokens : List Token
  /-- The columns of the open block collections, innermost first. -/
  columns : List Nat
  /-- A key without a sign may begin here. -/
  keyAllowed : Bool
  possibleKey : Option PossibleKey
  /-- What may be a key around each open flow collection, innermost first. -/
  outerKeys : List (Option PossibleKey)
deriving Repr

namespace Lexer

def start : Lexer := ⟨⟨0, 0⟩, [], [], true, none, []⟩

def inFlow (s : Lexer) : Bool := !s.outerKeys.isEmpty

def emit (s : Lexer) (t : Token) : Lexer := { s with tokens := t :: s.tokens }

/-- The token put behind the first `before` tokens. -/
def insertToken (s : Lexer) (before : Nat) (t : Token) : Lexer :=
  let k := s.tokens.length - before
  { s with tokens := s.tokens.take k ++ t :: s.tokens.drop k }

/-! ## Keys -/

/-- Nothing here is a key after all; a fault where only a key can stand. -/
def dropKey (s : Lexer) : Option Lexer :=
  if s.possibleKey.any (·.required) then none else some { s with possibleKey := none }

/-- What begins here may turn out to be a key. -/
def keepKey (s : Lexer) : Option Lexer :=
  if s.keyAllowed then
    (fun s =>
      let required := !s.inFlow && s.columns.head? = some s.mark.column
      { s with possibleKey := some ⟨s.mark, required, s.tokens.length⟩ }) <$> s.dropKey
  else some s

/-- Drops the keys that no colon has followed in time. -/
def dropStale (s : Lexer) : Option Lexer :=
  let stale := fun (k : PossibleKey) => k.isStale s.mark
  if (s.possibleKey :: s.outerKeys).any (·.any fun k => stale k && k.required) then none
  else
    let keep := fun (k : Option PossibleKey) => k.filter (!stale ·)
    some { s with possibleKey := keep s.possibleKey, outerKeys := s.outerKeys.map keep }

/-! ## Block collections -/

/-- Ends the block collections whose columns satisfy a condition, innermost first. -/
def closeBlocks (s : Lexer) (p : Nat → Bool) : Lexer :=
  if s.inFlow then s
  else
    let closed := (s.columns.takeWhile p).length
    { s with
      columns := s.columns.drop closed
      tokens := List.replicate closed .blockEnd ++ s.tokens }

def closeAllBlocks (s : Lexer) : Lexer := s.closeBlocks fun _ => true

/-- Begins a block collection in a column, unless one is open there. -/
def openBlock (s : Lexer) (column before : Nat) (t : Token) : Lexer :=
  if !s.inFlow && s.columns.head?.all (· < column) then
    { s with columns := column :: s.columns }.insertToken before t
  else s

/-- The same at the mark. -/
def openBlockHere (s : Lexer) (t : Token) : Lexer := s.openBlock s.mark.column s.tokens.length t

/-! ## Tokens -/

/-- A directive or the marker of a document's start or end: all blocks end before it. -/
def atMargin (s : Lexer) (t : Token) : Option Lexer :=
  (fun s => { s with keyAllowed := false }.emit t) <$> s.closeAllBlocks.dropKey

def openFlow (s : Lexer) (t : Token) : Option Lexer :=
  (fun s =>
    { s with
      outerKeys := s.possibleKey :: s.outerKeys
      possibleKey := none
      keyAllowed := true }.emit t) <$> s.keepKey

def closeFlow (s : Lexer) (t : Token) : Option Lexer :=
  (fun s =>
    match s.outerKeys with
    | [] => { s with keyAllowed := false }.emit t
    | k :: ks => { s with possibleKey := k, outerKeys := ks, keyAllowed := false }.emit t) <$>
    s.dropKey

def comma (s : Lexer) : Option Lexer :=
  (fun s => { s with keyAllowed := true }.emit .comma) <$> s.dropKey

def entry (s : Lexer) : Option Lexer :=
  if !s.inFlow && !s.keyAllowed then none
  else
    (fun s => { s with keyAllowed := true }.emit .entry) <$>
      (s.openBlockHere .blockSequence).dropKey

def key (s : Lexer) : Option Lexer :=
  if !s.inFlow && !s.keyAllowed then none
  else
    (fun s => { s with keyAllowed := !s.inFlow }.emit .key) <$>
      (s.openBlockHere .blockMapping).dropKey

/-- A colon: what may have been a key is one. -/
def value (s : Lexer) : Option Lexer :=
  match s.possibleKey with
  | some k =>
    let s := (s.insertToken k.before .key).openBlock k.mark.column k.before .blockMapping
    some ({ s with possibleKey := none, keyAllowed := false }.emit .value)
  | none =>
    if !s.inFlow && !s.keyAllowed then none
    else
      let s := s.openBlockHere .blockMapping
      some ({ s with keyAllowed := !s.inFlow }.emit .value)

/-- A node, or the beginning of one, that may turn out to be a key. -/
def node (s : Lexer) (t : Token) : Option Lexer :=
  (fun s => { s with keyAllowed := false }.emit t) <$> s.keepKey

def quoted (s : Lexer) (text : List Char) : Option Lexer :=
  s.node (.scalar false (String.ofList text))

/-- A plain text; on a new line after it a key may begin. -/
def plain (s : Lexer) (p : Plain) : Option Lexer :=
  (fun s => { s with keyAllowed := p.isLong }) <$>
    s.node (.scalar true (String.ofList p.text))

def block (s : Lexer) (text : List Char) : Option Lexer :=
  (fun s => { s with keyAllowed := true }.emit (.scalar false (String.ofList text))) <$> s.dropKey

/-- The characters that no plain text begins with. -/
def isIndicator (c : Char) : Bool :=
  ['-', '?', ':', ',', '[', ']', '{', '}', '#', '&', '*', '!', '|', '>', '\'', '"', '%', '@',
    '\x60'].contains c

/-- A plain text may begin with some signs if something follows them at once. -/
def beginsPlain (flow : Bool) (c : Char) (cs : List Char) : Bool :=
  !(isGap c || isBreak c || isIndicator c) || (c == '-' && !cs.head?.any isGap)
    || (!flow && (c == '?' || c == ':') && !endsWord cs)

/-- The next token and the number of characters that it takes after the first. -/
def next (s : Lexer) (c : Char) (cs : List Char) : Option (Lexer × Nat) :=
  let one := fun (s : Option Lexer) => (·, 0) <$> s
  let marginal := s.mark.column = 0
  if marginal && c == '%' then do
    let (t, n) ← readDirective cs
    some (← s.atMargin t, n + (← restOfLine (cs.drop n)))
  else if marginal && isMarker '-' (c :: cs) then (·, 2) <$> s.atMargin .documentStart
  else if marginal && isMarker '.' (c :: cs) then (·, 2) <$> s.atMargin .documentEnd
  else if c == '[' then one (s.openFlow .flowSequence)
  else if c == '{' then one (s.openFlow .flowMapping)
  else if c == ']' then one (s.closeFlow .flowSequenceEnd)
  else if c == '}' then one (s.closeFlow .flowMappingEnd)
  else if c == ',' then one s.comma
  else if c == '-' && endsWord cs then one s.entry
  else if c == '?' && (s.inFlow || endsWord cs) then one s.key
  else if c == ':' && (s.inFlow || endsWord cs) then one s.value
  else if c == '*' then do let (name, n) ← readAnchor cs; some (← s.node (.alias name), n)
  else if c == '&' then do let (name, n) ← readAnchor cs; some (← s.node (.anchor name), n)
  else if c == '!' then do let (name, n) ← readTag s.inFlow cs; some (← s.node (.tag name), n)
  else if (c == '|' || c == '>') && !s.inFlow then do
    let (text, n) ← readBlock (c == '|') s.columns.head? cs
    some (← s.block text, n)
  else if c == '\'' then do
    let (text, n) ← readSingle (s.mark.column + 1) 0 [] .none cs
    some (← s.quoted text, n)
  else if c == '"' then do
    let (text, n) ← readDouble (s.mark.column + 1) 0 [] .none cs
    some (← s.quoted text, n)
  else if beginsPlain s.inFlow c cs then do
    let indent := s.columns.head?.elim 0 (· + 1)
    let p ← readPlain s.inFlow indent (s.mark.column + 1) 0 [c] .none cs
    some (← s.plain p, p.taken)
  else none

/-- The tokens of the rest of a text, after blanks and comments. Tabs are no blanks where a key may
begin. -/
def run (s : Lexer) : List Char → Option (List Token)
  | [] => do
    let s ← (← s.dropStale).closeAllBlocks.dropKey
    some s.tokens.reverse
  | c :: cs =>
    if c == ' ' || (c == '\t' && (s.inFlow || !s.keyAllowed)) then
      run { s with mark := s.mark.next c } cs
    else if c == '#' then
      let n := (cs.takeWhile (!isBreak ·)).length
      run { s with mark := s.mark.past (c :: cs.take n) } (cs.drop n)
    else if isBreak c then
      run { s with mark := s.mark.next c, keyAllowed := s.keyAllowed || !s.inFlow } cs
    else
      match s.dropStale with
      | none => none
      | some s =>
        match (s.closeBlocks (s.mark.column < ·)).next c cs with
        | none => none
        | some (t, n) => run { t with mark := s.mark.past (c :: cs.take n) } (cs.drop n)
termination_by cs => cs.length
decreasing_by all_goals (simp; try omega)

end Lexer

/-- The tokens of a document's text, which may begin with a byte order mark. -/
def tokensOf (text : String) : Option (List Token) :=
  let cs := if text.startsWith "\ufeff" then text.toList.drop 1 else text.toList
  if cs.all isAllowed then Lexer.start.run (plainBreaks cs) else none

end StyleSieve.Yaml
