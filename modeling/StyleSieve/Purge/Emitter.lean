/-!
# Writing a stylesheet

Text goes to a sink in pieces, each taken whole or refused whole. A separator follows a declaration
only if text follows that does not close the block, so it is written before that text.
-/

namespace StyleSieve.Purge

/-- Why a sink did not do what was asked. -/
inductive SinkFault where
  | full
  | flushRefused
deriving Repr, DecidableEq

def SinkFault.message : SinkFault → String
  | full => "sink full"
  | flushRefused => "flush refused"

/-- Where text goes. A piece that would take the text past the limit, if there is one, is
refused. -/
structure Sink where
  limit : Option Nat
  failsFlush : Bool
  text : String
deriving Repr, DecidableEq

/-- A sink that accepts everything, with nothing in it. -/
def Sink.unlimited : Sink := ⟨none, false, ""⟩

/-- The bytes in a sink. -/
def Sink.size (s : Sink) : Nat := s.text.utf8ByteSize

def Sink.takes (s : Sink) (piece : String) : Bool :=
  s.limit.all fun n => s.size + piece.utf8ByteSize ≤ n

def Sink.put (s : Sink) (piece : String) : Sink := { s with text := s.text ++ piece }

/-- Something to be written. -/
inductive Output where
  | text (t : String)
  | declaration (property : String) (values : List String)
  | close
deriving Repr, DecidableEq

/-- The separator, if one is due. -/
def separatorDue (due : Bool) : List String := if due then [";"] else []

/-- The pieces of an output. A closing bracket makes a separator superfluous. -/
def Output.pieces (due : Bool) : Output → List String
  | text t => separatorDue due ++ [t]
  | declaration property values => separatorDue due ++ property :: ":" :: values
  | close => ["\x7d"]

/-- A separator is due after a declaration. -/
def Output.leavesDue : Output → Bool
  | declaration .. => true
  | _ => false

/-- The pieces of several outputs. -/
def piecesOf (due : Bool) : List Output → List String
  | [] => []
  | o :: os => o.pieces due ++ piecesOf o.leavesDue os

/-- The text of several outputs. -/
def textOf (os : List Output) : String := String.join (piecesOf false os)

/-- A sink with the separator that may be due and the bytes written so far. -/
structure Emitter where
  sink : Sink
  due : Bool
  written : Nat
deriving Repr, DecidableEq

namespace Emitter

def ofSink (s : Sink) : Emitter := ⟨s, false, 0⟩

/-- Hands pieces over until one is refused; empty pieces are never handed over. -/
def hand (e : Emitter) : List String → Emitter × Option SinkFault
  | [] => (e, none)
  | p :: ps =>
    if p.isEmpty then e.hand ps
    else if e.sink.takes p then
      hand { e with sink := e.sink.put p, written := e.written + p.utf8ByteSize } ps
    else (e, some .full)

/-- Writes one output. After a failure no separator is due. -/
def write (e : Emitter) (o : Output) : Emitter × Option SinkFault :=
  match hand { e with due := false } (o.pieces e.due) with
  | (e, none) => ({ e with due := o.leavesDue }, none)
  | (e, some fault) => (e, some fault)

/-- Writes outputs until one fails. -/
def writeAll (e : Emitter) : List Output → Emitter × Option SinkFault
  | [] => (e, none)
  | o :: os =>
    match e.write o with
    | (e, none) => e.writeAll os
    | (e, some fault) => (e, some fault)

def flush (e : Emitter) : Option SinkFault :=
  if e.sink.failsFlush then some .flushRefused else none

end Emitter

end StyleSieve.Purge
