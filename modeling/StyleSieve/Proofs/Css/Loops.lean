import StyleSieve.Css.Sheet
import StyleSieve.Proofs.Css.Cursor

/-!
# Reading a stylesheet by loops

A stylesheet is read token by token, by loops that call one another where blocks are nested. Rules
and declarations are read up to the end of their block, selectors and preludes up to a block or a
mark that ends them, values up to a semicolon. The loops are written as they run, one pass after the
other. A loop is given up after a pass that has not moved on, since it could go on for ever from
there: `none` stands for a call that has been given up.
-/

namespace StyleSieve.Css

/-- Why reading ends early. -/
inductive Failure where
  | malformed (error : SyntaxError)
  /-- A block that begins at the offset was read, but not to its end. -/
  | unexhausted (found : Token) (offset : Nat)
  /-- A block was to be entered where none begins. -/
  | noBlock
deriving Repr, DecidableEq

/-- A place in a stylesheet, and the events up to it. -/
structure Reader where
  cursor : Cursor
  events : List Event
deriving Repr, DecidableEq

/-- What a call comes back with. -/
structure Answer where
  reader : Reader
  failure : Option Failure
deriving Repr, DecidableEq

/-- One pass of a loop: the loop goes on in another state, or the call returns. -/
inductive Turn (σ : Type) where
  | again (state : σ)
  | leave (answer : Answer)

namespace Reader

/-- The events so far, at another place. -/
def move (r : Reader) (c : Cursor) : Reader := { r with cursor := c }

def emit (r : Reader) (e : Event) : Reader := { r with events := r.events ++ [e] }

/-- The comment that has been read from a place on. -/
def comment (r : Reader) (start : Cursor) : Reader :=
  r.emit ⟨.comment, String.ofList (r.cursor.since start), [], ⟨start.position, r.cursor.position⟩⟩

def done (r : Reader) : Answer := ⟨r, none⟩

def fail (r : Reader) (fault : SyntaxFault) (offset : Nat) : Answer :=
  ⟨r, some (.malformed ⟨fault, offset⟩)⟩

end Reader

namespace Answer

/-- A loop goes on after a call, unless the call has failed. -/
def again (x : Answer) : Turn Reader := if x.failure.isSome then .leave x else .again x.reader

/-- The end of a block that begins at a place, once its inside has been read. -/
def close (x : Answer) (kind : EventKind) (start : Cursor) : Answer :=
  if x.failure.isSome then x
  else
    let stop := x.reader.cursor.position
    let first := if (x.reader.cursor.since start).getLast? = some '}' then stop - 1 else stop
    (x.reader.emit ⟨kind, "\x7d", [], ⟨first, stop⟩⟩).done

/-- Nothing may be left of a block once its inside has been read. -/
def exhaust (x : Answer) (offset : Nat) : Answer :=
  if x.failure.isSome then x
  else { x with failure := x.reader.cursor.unread.map fun token => .unexhausted token offset }

/-- The block whose inside has been read is left; its bracket `b` was read last at `c`. -/
def outOf (x : Answer) (c : Cursor) (b : Bracket) : Answer :=
  { x.exhaust c.position with reader := x.reader.move (c.exit x.reader.cursor b) }

end Answer

/-- The component values read so far, and whether white space came after them. -/
structure Gathered where
  values : List String
  space : Bool
deriving Repr, DecidableEq

namespace Gathered

def empty : Gathered := ⟨[], false⟩

def push (k : Gathered) (value : String) : Gathered :=
  ⟨(if k.space && !k.values.isEmpty then k.values ++ [" "] else k.values) ++ [value], false⟩

/-- One token more, which stands between two places; the block that it opens belongs to it. -/
def add (k : Gathered) (start c : Cursor) : Token → Except SyntaxError (Gathered × Cursor)
  | .whitespace _ => .ok ({ k with space := true }, c)
  | .comment _ => .ok (k, c)
  | .badString _ => .error ⟨.unterminatedString, start.position⟩
  | .badUrl _ => .error ⟨.malformedUrl, start.position⟩
  | _ => .ok (k.push (String.ofList (c.skipBlock.since start)), c.skipBlock)

end Gathered

/-- A selector, a prelude or a value that is being read from a place on. -/
structure Gathering where
  reader : Reader
  gathered : Gathered
  start : Cursor
deriving Repr, DecidableEq

namespace Gathering

def cursor (g : Gathering) : Cursor := g.reader.cursor

/-- Nothing has been read yet. -/
def fresh (r : Reader) : Gathering := ⟨r, .empty, r.cursor⟩

/-- One token more, which does not end what is being read, with the place behind the token. -/
def more (g : Gathering) (token : Token) (c : Cursor) : Turn Gathering :=
  match g.gathered.add g.cursor c token with
  | .error e => .leave ⟨g.reader.move c, some (.malformed e)⟩
  | .ok (k, d) => .again { g with reader := g.reader.move d, gathered := k }

/-- The selector that ends here, without blanks around it. -/
def selectorEvent (g : Gathering) (kind : EventKind) : Event :=
  let raw := g.cursor.since g.start
  let first := g.start.position + Text.width (raw.takeWhile Text.isBlank)
  let data := Text.strip Text.isBlank raw
  ⟨kind, String.ofList data, g.gathered.values, ⟨first, first + Text.width data⟩⟩

/-- The at-rule whose prelude ends here, up to a place. -/
def preludeEvent (g : Gathering) (kind : EventKind) (data : String) (stop : Cursor) : Event :=
  ⟨kind, data, g.gathered.values, ⟨g.start.position, stop.position⟩⟩

/-- The declaration whose value ends here and whose name begins at `start`. -/
def declarationEvent (g : Gathering) (data : List Char) (start : Cursor) : Event :=
  let span := ⟨start.position, g.cursor.position⟩
  if data.take 2 = ['-', '-'] then
    let raw := Text.strip Text.isBlank (g.cursor.since g.start)
    ⟨.customDeclaration, String.ofList data, if raw.isEmpty then [] else [String.ofList raw], span⟩
  else ⟨.declaration, String.ofList data, g.gathered.values, span⟩

end Gathering

/-! ## Declarations -/

/-- The passes of a loop that calls no other, until one returns. -/
def iterate {σ : Type} (cursor : σ → Cursor) (turn : σ → Turn σ) (s : σ) : Option Answer :=
  match turn s with
  | .again s' =>
    if (cursor s').rest.length < (cursor s).rest.length then iterate cursor turn s' else none
  | .leave x => some x
termination_by (cursor s).rest.length

/-- The colon after the name of a property is looked for. -/
def colonTurn (data : String) (r : Reader) : Turn Reader :=
  match r.cursor.next with
  | (none, c) => .leave ((r.move c).fail (.missingColon data none) r.cursor.position)
  | (some (.whitespace _), c) => .again (r.move c)
  | (some (.comment _), c) => .again (r.move c)
  | (some .colon, c) => .leave (r.move c).done
  | (some token, c) => .leave ((r.move c).fail (.missingColon data (some token)) r.cursor.position)

/-- A value goes on to a semicolon or to the end of the block. -/
def valueTurn (data : List Char) (start : Cursor) (g : Gathering) : Turn Gathering :=
  match g.cursor.next with
  | (none, c) => .leave ((g.reader.move c).emit (g.declarationEvent data start)).done
  | (some .semicolon, c) => .leave ((g.reader.move c).emit (g.declarationEvent data start)).done
  | (some token, c) => g.more token c

/-- A declaration whose name has been read from `start` on. -/
def declaration (start : Cursor) (r : Reader) : Option Answer := do
  let data := r.cursor.since start
  let x ← iterate Reader.cursor (colonTurn (String.ofList data)) r
  if x.failure.isSome then some x
  else iterate Gathering.cursor (valueTurn data start) (.fresh x.reader)

/-! ## Rules and blocks -/

mutual

/-- The block that has been opened, read as rules or else as declarations. -/
def readBlock (body : Context) (r : Reader) : Option Answer :=
  match r.cursor.opened with
  | none => some ⟨r, some .noBlock⟩
  | some b => do
    let x ← readInside body (r.move (r.cursor.enter b))
    some (x.outOf r.cursor b)
termination_by (r.cursor.rest.length, 5)
decreasing_by exact Prod.Lex.right _ (by decide)

def readInside (body : Context) (r : Reader) : Option Answer :=
  if body = .rules then ruleList r else declarationList r
termination_by (r.cursor.rest.length, 4)
decreasing_by
  · exact Prod.Lex.right _ (by decide)
  · exact Prod.Lex.right _ (by decide)

/-- Rules and at-rules. A token that begins a rule is read a second time with it. -/
def ruleTurn (r : Reader) : Option (Turn Reader) :=
  match _h : r.cursor.next with
  | (none, c) => some (.leave (r.move c).done)
  | (some (.whitespace _), c) => some (.again (r.move c))
  | (some .commentOpen, c) => some (.again (r.move c))
  | (some .commentClose, c) => some (.again (r.move c))
  | (some .semicolon, c) => some (.again (r.move c))
  | (some (.comment _), c) => some (.again ((r.move c).comment r.cursor))
  | (some (.atKeyword _), c) => do
    let x ← atRule r.cursor (r.move c)
    some x.again
  | (some (.closing b), c) =>
    some (.leave ((r.move c).fail (.inRules (.closing b)) r.cursor.position))
  | (some (.badString s), c) =>
    some (.leave ((r.move c).fail (.inRules (.badString s)) r.cursor.position))
  | (some (.badUrl s), c) =>
    some (.leave ((r.move c).fail (.inRules (.badUrl s)) r.cursor.position))
  | (some _, _) => do
    let x ← qualifiedRule (.fresh r)
    some x.again
termination_by (r.cursor.rest.length, 2)
decreasing_by
  · exact Prod.Lex.left _ _ (Cursor.past_of_next _h).shorter
  · exact Prod.Lex.right _ (by decide)

def ruleList (r : Reader) : Option Answer := do
  match ← ruleTurn r with
  | .again r' => if r'.cursor.rest.length < r.cursor.rest.length then ruleList r' else none
  | .leave x => some x
termination_by (r.cursor.rest.length, 3)
decreasing_by
  · exact Prod.Lex.right _ (by decide)
  · exact Prod.Lex.left _ _ ‹_›

/-- The selectors of a rule, with commas between them, and its block. -/
def selectorTurn (g : Gathering) : Option (Turn Gathering) :=
  match _h : g.cursor.next with
  | (none, c) => some (.leave ((g.reader.move c).fail .endInSelector g.cursor.position))
  | (some .comma, c) =>
    if g.gathered.values.isEmpty then
      some (.leave ((g.reader.move c).fail .emptySelector g.cursor.position))
    else some (.again (.fresh ((g.reader.move c).emit (g.selectorEvent .selector))))
  | (some (.opening .curly), c) =>
    if g.gathered.values.isEmpty then
      some (.leave ((g.reader.move c).fail .emptySelector g.cursor.position))
    else do
      let x ← readBlock .declarations ((g.reader.move c).emit (g.selectorEvent .rulesetStart))
      some (.leave (x.close .rulesetEnd g.cursor))
  | (some .semicolon, c) =>
    some (.leave ((g.reader.move c).fail (.inSelector .semicolon) g.cursor.position))
  | (some (.closing .curly), c) =>
    some (.leave ((g.reader.move c).fail (.inSelector (.closing .curly)) g.cursor.position))
  | (some token, c) => some (g.more token c)
termination_by (g.cursor.rest.length, 0)
decreasing_by exact Prod.Lex.left _ _ (Cursor.past_of_next _h).shorter

def qualifiedRule (g : Gathering) : Option Answer := do
  match ← selectorTurn g with
  | .again g' =>
    if g'.cursor.rest.length < g.cursor.rest.length then qualifiedRule g' else none
  | .leave x => some x
termination_by (g.cursor.rest.length, 1)
decreasing_by
  · exact Prod.Lex.right _ (by decide)
  · exact Prod.Lex.left _ _ ‹_›

/-- Declarations and at-rules. -/
def declarationTurn (r : Reader) : Option (Turn Reader) :=
  match _h : r.cursor.next with
  | (none, c) => some (.leave (r.move c).done)
  | (some (.whitespace _), c) => some (.again (r.move c))
  | (some .semicolon, c) => some (.again (r.move c))
  | (some (.comment _), c) => some (.again ((r.move c).comment r.cursor))
  | (some (.atKeyword _), c) => do
    let x ← atRule r.cursor (r.move c)
    some x.again
  | (some (.ident _), c) => do
    let x ← declaration r.cursor (r.move c)
    some x.again
  | (some token, c) => some (.leave ((r.move c).fail (.inDeclarations token) r.cursor.position))
termination_by (r.cursor.rest.length, 2)
decreasing_by exact Prod.Lex.left _ _ (Cursor.past_of_next _h).shorter

def declarationList (r : Reader) : Option Answer := do
  match ← declarationTurn r with
  | .again r' =>
    if r'.cursor.rest.length < r.cursor.rest.length then declarationList r' else none
  | .leave x => some x
termination_by (r.cursor.rest.length, 3)
decreasing_by
  · exact Prod.Lex.right _ (by decide)
  · exact Prod.Lex.left _ _ ‹_›

/-- The prelude of an at-rule, and its block if it has one. -/
def preludeTurn (data : String) (g : Gathering) : Option (Turn Gathering) :=
  match _h : g.cursor.next with
  | (none, c) =>
    some (.leave ((g.reader.move c).emit (g.preludeEvent .statement data g.cursor)).done)
  | (some .semicolon, c) =>
    some (.leave ((g.reader.move c).emit (g.preludeEvent .statement data c)).done)
  | (some (.opening .curly), c) => do
    let x ← readBlock (.ofAtRule data)
      ((g.reader.move c).emit (g.preludeEvent .blockStart data g.cursor))
    some (.leave (x.close .blockEnd g.cursor))
  | (some token, c) => some (g.more token c)
termination_by (g.cursor.rest.length, 0)
decreasing_by exact Prod.Lex.left _ _ (Cursor.past_of_next _h).shorter

def preludeLoop (data : String) (g : Gathering) : Option Answer := do
  match ← preludeTurn data g with
  | .again g' =>
    if g'.cursor.rest.length < g.cursor.rest.length then preludeLoop data g' else none
  | .leave x => some x
termination_by (g.cursor.rest.length, 1)
decreasing_by
  · exact Prod.Lex.right _ (by decide)
  · exact Prod.Lex.left _ _ ‹_›

/-- An at-rule whose keyword has been read from `start` on. -/
def atRule (start : Cursor) (r : Reader) : Option Answer :=
  preludeLoop (String.ofList (r.cursor.since start)) ⟨r, .empty, start⟩
termination_by (r.cursor.rest.length, 2)
decreasing_by exact Prod.Lex.right _ (by decide)

end

/-- The events of a stylesheet, and why they end early if they do. -/
def parseSheet (source : String) : Option (List Event × Option Failure) := do
  let x ← ruleList ⟨.ofText source.toList, []⟩
  some (x.reader.events, x.failure)

end StyleSieve.Css
