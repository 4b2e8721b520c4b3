import StyleSieve.Css.Event
import StyleSieve.Css.Name
import StyleSieve.Css.Tree
import StyleSieve.Text.Blank

/-!
# Reading a stylesheet

The events of a stylesheet, read off its token trees. A list of trees is read in one of three
contexts: as rules, as declarations, or as the selectors of a rule that has begun. A context goes
back to another only by leaving trees behind, so reading ends because trees run out.
-/

namespace StyleSieve.Css

namespace Tree

def isSemicolon : Tree → Bool
  | leaf l => l.token == .semicolon
  | block .. => false

def isColon : Tree → Bool
  | leaf l => l.token == .colon
  | block .. => false

def isComma : Tree → Bool
  | leaf l => l.token == .comma
  | block .. => false

/-- A block between curly brackets. -/
def isCurly : Tree → Bool
  | leaf _ => false
  | block h _ _ => h.token == .opening .curly

def isGap (t : Tree) : Bool := t.token.isWhitespace || t.token.isComment

/-- A selector ends before a comma or a block, and may not hold the other two. -/
def endsSelector (t : Tree) : Bool :=
  t.isComma || t.isCurly || t.isSemicolon || t.token == .closing .curly

def endsPrelude (t : Tree) : Bool := t.isSemicolon || t.isCurly

/-- The trees inside a block, and the bytes of the bracket before them. -/
def inside : Tree → List Tree
  | leaf _ => []
  | block _ body _ => body

def headWidth : Tree → Nat
  | leaf l => Text.width l.raw
  | block h _ _ => Text.width h.raw

theorem countOf_inside_lt (t : Tree) : countOf t.inside < t.count := by
  cases t <;> simp [inside, count]

end Tree

open StyleSieve.Css.Tree

/-- Component values after `started` values and, if `gap`, some white space. -/
def componentsAfter (started gap : Bool) : List Tree → List String
  | [] => []
  | t :: ts =>
    if t.token.isComment then componentsAfter started gap ts
    else if t.token.isWhitespace then componentsAfter started true ts
    else if started && gap then " " :: t.text :: componentsAfter true false ts
    else t.text :: componentsAfter true false ts

/-- The component values of some trees: comments dropped, white space inside made one space. -/
def components (ts : List Tree) : List String := componentsAfter false false ts

/-- The first tree that cannot be a component, and where it is. -/
def firstFault (pos : Nat) : List Tree → Option SyntaxError
  | [] => none
  | t :: ts =>
    match t.token with
    | .badString _ => some ⟨.unterminatedString, pos⟩
    | .badUrl _ => some ⟨.malformedUrl, pos⟩
    | _ => firstFault (pos + t.width) ts

/-- The outcome of a faulty list of components, else another one. -/
def guarded (pos : Nat) (ts : List Tree) (next : Outcome) : Outcome :=
  match firstFault pos ts with
  | some e => ⟨[], some e⟩
  | none => next

/-- A selector as written, without blanks around it. -/
def selectorEvent (kind : EventKind) (pos : Nat) (ts : List Tree) : Event :=
  let raw := rawOf ts
  let start := pos + Text.width (raw.takeWhile Text.isBlank)
  let data := Text.strip Text.isBlank raw
  ⟨kind, String.ofList data, components ts, ⟨start, start + Text.width data⟩⟩

def commentEvent (pos : Nat) (t : Tree) : Event :=
  ⟨.comment, t.text, [], ⟨pos, pos + t.width⟩⟩

/-- The end of a block that stops at `stop`. The last byte is its span if the block's text ends with
a curly bracket, else the span is empty. -/
def endEvent (kind : EventKind) (t : Tree) (stop : Nat) : Event :=
  ⟨kind, "\x7d", [], ⟨if t.raw.getLast? = some '}' then stop - 1 else stop, stop⟩⟩

/-- A property whose name begins with two hyphens keeps its value as written. -/
def declarationEvent (name : Tree) (value : List Tree) (span : Span) : Event :=
  if name.raw.take 2 = ['-', '-'] then
    let raw := Text.strip Text.isBlank (rawOf value)
    ⟨.customDeclaration, name.text, if raw.isEmpty then [] else [String.ofList raw], span⟩
  else ⟨.declaration, name.text, components value, span⟩

/-- What the trees being read are part of. -/
inductive Context where
  | rules
  | declarations
  | selectors
deriving Repr, DecidableEq

/-- Where the trees inside the block of an at-rule belong. -/
def Context.ofAtRule (data : String) : Context :=
  if holdsRules (String.ofList (data.toList.dropWhile (· == '@'))) then .rules else .declarations

/-- Selectors may go back to rules once without reading a tree. -/
def Context.rank : Context → Nat
  | .rules => 1
  | _ => 0

theorem Context.rank_le (ctx : Context) : ctx.rank ≤ 1 := by
  cases ctx <;> simp [rank]

/-- The events of trees that begin at byte `pos`. -/
def eventsOf (ctx : Context) (pos : Nat) (ts : List Tree) : Outcome :=
  match ctx, ts with
  | .rules, [] => .empty
  | .declarations, [] => .empty
  | .selectors, ts =>
    let selector := ts.takeWhile (!·.endsSelector)
    let here := pos + widthOf selector
    guarded pos selector <|
      match h : ts.dropWhile (!·.endsSelector) with
      | [] => .fail .endInSelector here
      | t :: rest =>
        have := countOf_of_dropWhile_eq_cons h
        have := t.count_pos
        have := countOf_inside_lt t
        if t.isComma || t.isCurly then
          if (components selector).isEmpty then .fail .emptySelector here
          else if t.isComma then
            .one (selectorEvent .selector pos selector) ++ eventsOf .selectors (here + t.width) rest
          else
            .one (selectorEvent .rulesetStart pos selector)
              ++ eventsOf .declarations (here + t.headWidth) t.inside
              ++ .one (endEvent .rulesetEnd t (here + t.width))
              ++ eventsOf .rules (here + t.width) rest
        else .fail (.inSelector t.token) here
  | ctx, t :: rest =>
    have := t.count_pos
    let next := pos + t.width
    match t.token with
    | .whitespace _ => eventsOf ctx next rest
    | .semicolon => eventsOf ctx next rest
    | .comment _ => .one (commentEvent pos t) ++ eventsOf ctx next rest
    | .atKeyword _ =>
      let prelude := rest.takeWhile (!·.endsPrelude)
      let values := components prelude
      let here := next + widthOf prelude
      guarded next prelude <|
        match h : rest.dropWhile (!·.endsPrelude) with
        | [] => .one ⟨.statement, t.text, values, ⟨pos, here⟩⟩
        | u :: rest =>
          have := countOf_of_dropWhile_eq_cons h
          have := u.count_pos
          have := countOf_inside_lt u
          have := (Context.ofAtRule t.text).rank_le
          if u.isCurly then
            .one ⟨.blockStart, t.text, values, ⟨pos, here⟩⟩
              ++ eventsOf (.ofAtRule t.text) (here + u.headWidth) u.inside
              ++ .one (endEvent .blockEnd u (here + u.width))
              ++ eventsOf ctx (here + u.width) rest
          else
            .one ⟨.statement, t.text, values, ⟨pos, here + u.width⟩⟩
              ++ eventsOf ctx (here + u.width) rest
    | token =>
      match ctx, token with
      | .rules, .commentOpen => eventsOf .rules next rest
      | .rules, .commentClose => eventsOf .rules next rest
      | .rules, .closing _ => .fail (.inRules token) pos
      | .rules, .badString _ => .fail (.inRules token) pos
      | .rules, .badUrl _ => .fail (.inRules token) pos
      | .rules, _ => eventsOf .selectors pos (t :: rest)
      | .declarations, .ident _ =>
        let gap := rest.takeWhile isGap
        let here := next + widthOf gap
        match h : rest.dropWhile isGap with
        | [] => .fail (.missingColon t.text none) here
        | u :: more =>
          have := countOf_of_dropWhile_eq_cons h
          have := countOf_dropWhile_le (!·.isSemicolon) more
          if u.isColon then
            let value := more.takeWhile (!·.isSemicolon)
            let stop := here + u.width + widthOf value
            guarded (here + u.width) value <|
              .one (declarationEvent t value ⟨pos, stop⟩)
                ++ eventsOf .declarations stop (more.dropWhile (!·.isSemicolon))
          else .fail (.missingColon t.text (some u.token)) here
      | _, _ => .fail (.inDeclarations token) pos
termination_by 2 * countOf ts + ctx.rank
decreasing_by
  all_goals simp only [countOf_cons, Context.rank] at *
  all_goals omega

/-- The events of a stylesheet. -/
def events (source : String) : Outcome := eventsOf .rules 0 (Tree.ofText source.toList)

end StyleSieve.Css
