import StyleSieve.Css.Token

/-!
# Events of a stylesheet

A stylesheet is a sequence of events, each with the text it came from. A malformed one has the
events before its fault.
-/

namespace StyleSieve.Css

/-- Bytes of the source from `start` up to `stop`. -/
structure Span where
  start : Nat
  stop : Nat
deriving Repr, DecidableEq

inductive EventKind where
  | comment
  /-- A selector that another one follows in its list. -/
  | selector
  /-- The last selector of a list; the block of its rule begins. -/
  | rulesetStart
  | rulesetEnd
  | declaration
  | customDeclaration
  /-- An at-rule without a block. -/
  | statement
  | blockStart
  | blockEnd
deriving Repr, DecidableEq

/-- An event. `data` is the comment, the selector, the name of a property, an at-keyword or a
closing bracket as written. `values` are the component values, with one space where the source has any. -/
structure Event where
  kind : EventKind
  data : String
  values : List String
  span : Span
deriving Repr, DecidableEq

namespace Event

/-- The values as one text. -/
def text (e : Event) : String := String.join e.values

/-- The name of an at-rule without its sign. -/
def atName (e : Event) : String := String.ofList (e.data.toList.dropWhile (· == '@'))

/-- An at-keyword with its values. -/
def prelude (e : Event) : String := if e.values.isEmpty then e.data else e.data ++ " " ++ e.text

end Event

/-- What makes a stylesheet malformed. -/
inductive SyntaxFault where
  | inRules (found : Token)
  | endInSelector
  | emptySelector
  | inSelector (found : Token)
  | inDeclarations (found : Token)
  | missingColon (property : String) (found : Option Token)
  | unterminatedString
  | malformedUrl
deriving Repr, DecidableEq

def SyntaxFault.message : SyntaxFault → String
  | inRules t => "unexpected " ++ t.describe ++ " in rule list"
  | endInSelector => "unexpected end of input in selector"
  | emptySelector => "empty selector"
  | inSelector t => "unexpected " ++ t.describe ++ " in selector"
  | inDeclarations t => "unexpected " ++ t.describe ++ " in declaration block"
  | missingColon property none => "expected ':' after " ++ property
  | missingColon property (some t) => "expected ':' after " ++ property ++ ", found " ++ t.describe
  | unterminatedString => "unterminated string"
  | malformedUrl => "malformed url"

/-- A fault and where it is. -/
structure SyntaxError where
  fault : SyntaxFault
  offset : Nat
deriving Repr, DecidableEq

def SyntaxError.message (e : SyntaxError) : String :=
  "CSS syntax error at offset " ++ toString e.offset ++ ": " ++ e.fault.message

/-- The events of a stylesheet, and its fault if it has one. -/
structure Outcome where
  events : List Event
  error : Option SyntaxError
deriving Repr, DecidableEq

namespace Outcome

def empty : Outcome := ⟨[], none⟩

def fail (fault : SyntaxFault) (offset : Nat) : Outcome := ⟨[], some ⟨fault, offset⟩⟩

def one (e : Event) : Outcome := ⟨[e], none⟩

/-- One outcome after another; nothing follows a fault. -/
def append (p q : Outcome) : Outcome :=
  if p.error.isSome then p else ⟨p.events ++ q.events, q.error⟩

instance : Append Outcome := ⟨append⟩

theorem append_def (p q : Outcome) :
    p ++ q = if p.error.isSome then p else ⟨p.events ++ q.events, q.error⟩ := rfl

@[simp] theorem empty_append (p : Outcome) : empty ++ p = p := by
  simp [append_def, empty]

@[simp] theorem append_empty (p : Outcome) : p ++ empty = p := by
  rcases p with ⟨events, error⟩
  cases error <;> simp [append_def, empty]

theorem append_assoc (p q r : Outcome) : p ++ q ++ r = p ++ (q ++ r) := by
  rcases p with ⟨es, e⟩
  rcases q with ⟨fs, f⟩
  cases e <;> cases f <;> simp [append_def]

@[simp] theorem one_append_events (e : Event) (p : Outcome) :
    (one e ++ p).events = e :: p.events := by
  simp [append_def, one]

@[simp] theorem one_append_error (e : Event) (p : Outcome) : (one e ++ p).error = p.error := by
  simp [append_def, one]

end Outcome

end StyleSieve.Css
