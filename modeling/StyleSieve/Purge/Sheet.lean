import StyleSieve.Purge.Plan

/-!
# Purging a stylesheet

The plan for a stylesheet is written to a sink. What was written before an error stays written.
-/

namespace StyleSieve.Purge

open Usage

inductive PurgeError where
  | sheet (error : SheetError)
  | unwritten (fault : SinkFault)
deriving Repr, DecidableEq

def PurgeError.message : PurgeError → String
  | sheet e => e.message
  | unwritten fault => "failed to write output: " ++ fault.message

/-- The sink after a purge, and the counters or the error that ended it. -/
structure Purged where
  sink : Sink
  result : Except PurgeError Counts

/-- Writes what is kept of a stylesheet to a sink. -/
def purge (j : Judge) (source : String) (sink : Sink) : Purged :=
  let plan := planOf j source
  match (Emitter.ofSink sink).writeAll plan.outputs with
  | (e, some fault) => ⟨e.sink, .error (.unwritten fault)⟩
  | (e, none) =>
    ⟨e.sink, match plan.ending with
      | .error fault => .error (.sheet fault)
      | .ok s =>
        match e.flush with
        | some fault => .error (.unwritten fault)
        | none => .ok { s.counts with bytesOut := e.written }⟩

end StyleSieve.Purge
