import StyleSieve.Proofs.Css.Outline
import StyleSieve.Purge.Sheet

/-!
# Runs of a purge

A purge as a relation: events lead from one state to another and leave outputs behind. A purge that
succeeds is a run over all events of a stylesheet without a fault, and its sink ends with the text
of the outputs (`exists_run_of_purge`). Refused pieces are not treated here.
-/

namespace StyleSieve.Purge

open Css

/-! ## The text of outputs -/

/-- Whether a separator is due after some outputs. -/
def dueAfter (due : Bool) : List Output → Bool
  | [] => due
  | o :: os => dueAfter o.leavesDue os

/-- The text of some outputs where a separator may be due before them. -/
def textFrom (due : Bool) (os : List Output) : String := String.join (piecesOf due os)

theorem textOf_eq (os : List Output) : textOf os = textFrom false os := rfl

theorem piecesOf_append (due : Bool) (os os' : List Output) :
    piecesOf due (os ++ os') = piecesOf due os ++ piecesOf (dueAfter due os) os' := by
  induction os generalizing due with
  | nil => rfl
  | cons o os ih => simp [piecesOf, dueAfter, ih]

theorem dueAfter_append (due : Bool) (os os' : List Output) :
    dueAfter due (os ++ os') = dueAfter (dueAfter due os) os' := by
  induction os generalizing due with
  | nil => rfl
  | cons o os ih => simp [dueAfter, ih]

theorem textFrom_append (due : Bool) (os os' : List Output) :
    textFrom due (os ++ os') = textFrom due os ++ textFrom (dueAfter due os) os' := by
  simp [textFrom, piecesOf_append, String.join_append]

theorem textFrom_nil (due : Bool) : textFrom due [] = "" := rfl

theorem textFrom_text (due : Bool) (t : String) (os : List Output) :
    textFrom due (.text t :: os) = (if due then ";" else "") ++ t ++ textFrom false os := by
  cases due <;> simp [textFrom, piecesOf, Output.pieces, separatorDue, Output.leavesDue,
    String.append_assoc]

theorem textFrom_declaration (due : Bool) (property : String) (values : List String) :
    textFrom due [.declaration property values]
      = (if due then ";" else "") ++ property ++ ":" ++ String.join values := by
  cases due <;> simp [textFrom, piecesOf, Output.pieces, separatorDue, String.append_assoc]

theorem textFrom_close (due : Bool) : textFrom due [.close] = "\x7d" := by
  simp [textFrom, piecesOf, Output.pieces]

/-- Two ways of handing over the same text, whatever comes before and after them. -/
structure Alike (os os' : List Output) : Prop where
  text : ∀ due, textFrom due os = textFrom due os'
  due : ∀ due, dueAfter due os = dueAfter due os'

namespace Alike

theorem refl (os : List Output) : Alike os os := ⟨fun _ => rfl, fun _ => rfl⟩

theorem trans {os os' os'' : List Output} (h : Alike os os') (h' : Alike os' os'') :
    Alike os os'' :=
  ⟨fun due => (h.text due).trans (h'.text due), fun due => (h.due due).trans (h'.due due)⟩

theorem append {os os' ps ps' : List Output} (h : Alike os os') (h' : Alike ps ps') :
    Alike (os ++ ps) (os' ++ ps') := by
  constructor
  · intro due
    rw [textFrom_append, textFrom_append, h.text, h.due, h'.text]
  · intro due
    rw [dueAfter_append, dueAfter_append, h.due, h'.due]

theorem textOf_eq {os os' : List Output} (h : Alike os os') : textOf os = textOf os' :=
  h.text false

theorem cons {os os' : List Output} (o : Output) (h : Alike os os') : Alike (o :: os) (o :: os') :=
  (refl [o]).append h

/-- Two texts may be handed over as one. -/
theorem merged (t t' : String) (os : List Output) :
    Alike (.text t :: .text t' :: os) (.text (t ++ t') :: os) := by
  constructor
  · intro due
    rw [textFrom_text, textFrom_text, textFrom_text]
    simp [String.append_assoc]
  · intro due
    rfl

/-- Outputs that begin with a text and end with a closing bracket may be handed over as one text. -/
theorem joined (t : String) (os : List Output) :
    Alike [.text (textOf (.text t :: os ++ [.close]))] (.text t :: os ++ [.close]) := by
  constructor
  · intro due
    simp [textFrom, textOf, piecesOf, Output.pieces, Output.leavesDue, separatorDue]
  · intro due
    rw [dueAfter_append]
    rfl

end Alike

/-! ## What has been written -/

namespace Emitter

theorem writeAll_append (e : Emitter) (os os' : List Output) : e.writeAll (os ++ os') =
    match e.writeAll os with
    | (e', none) => e'.writeAll os'
    | (e', some fault) => (e', some fault) := by
  induction os generalizing e with
  | nil => rfl
  | cons o os ih =>
    rw [List.cons_append, writeAll, writeAll]
    rcases e.write o with ⟨e', fault⟩
    cases fault with
    | some fault => rfl
    | none => exact ih e'

theorem hand_text {e e' : Emitter} {ps : List String} (h : e.hand ps = (e', none)) :
    e'.sink.text = e.sink.text ++ String.join ps ∧ e'.due = e.due := by
  induction ps generalizing e with
  | nil =>
    obtain rfl : e = e' := congrArg Prod.fst h
    simp
  | cons p ps ih =>
    rw [hand] at h
    split at h
    · next hp =>
      obtain ⟨htext, hdue⟩ := ih h
      have hempty : p = "" := by simpa using hp
      exact ⟨by rw [htext, hempty]; simp, hdue⟩
    · split at h
      · obtain ⟨htext, hdue⟩ := ih h
        refine ⟨?_, hdue⟩
        rw [htext, Sink.put]
        simp [String.append_assoc]
      · simp at h

theorem write_text {e e' : Emitter} {o : Output} (h : e.write o = (e', none)) :
    e'.sink.text = e.sink.text ++ String.join (o.pieces e.due) ∧ e'.due = o.leavesDue := by
  unfold write at h
  split at h
  · next e₁ hhand =>
    obtain rfl := congrArg Prod.fst h
    exact ⟨(hand_text hhand).1, rfl⟩
  · simp at h

/-- Outputs that are all written leave their text in the sink. -/
theorem writeAll_text {e e' : Emitter} {os : List Output} (h : e.writeAll os = (e', none)) :
    e'.sink.text = e.sink.text ++ textFrom e.due os := by
  induction os generalizing e with
  | nil =>
    obtain rfl : e = e' := congrArg Prod.fst h
    simp [textFrom, piecesOf]
  | cons o os ih =>
    rw [writeAll] at h
    split at h
    · next e₁ hwrite =>
      obtain ⟨htext, hdue⟩ := write_text hwrite
      rw [ih h, htext, hdue]
      simp [textFrom, piecesOf, String.append_assoc]
    · simp at h

end Emitter

/-! ## Runs -/

/-- Events lead from one state to another and leave outputs behind. -/
inductive Runs (j : Judge) (source : String) : State → List Event → List Output → State → Prop
  | nil (s : State) : Runs j source s [] [] s
  | cons {s s' t : State} {e : Event} {es : List Event} {os os' : List Output}
      (step : s.step j source e = .ok (s', os)) (rest : Runs j source s' es os' t) :
      Runs j source s (e :: es) (os ++ os') t

section

variable {j : Judge} {source : String} {s t : State} {es es' : List Event} {os : List Output}

theorem runs_nil_iff : Runs j source s [] os t ↔ t = s ∧ os = [] := by
  constructor
  · intro h
    cases h
    exact ⟨rfl, rfl⟩
  · rintro ⟨rfl, rfl⟩
    exact .nil t

theorem runs_cons_iff {e : Event} :
    Runs j source s (e :: es) os t ↔ ∃ m here later,
      s.step j source e = .ok (m, here) ∧ Runs j source m es later t ∧ os = here ++ later := by
  constructor
  · intro h
    cases h with
    | cons step rest => exact ⟨_, _, _, step, rest, rfl⟩
  · rintro ⟨m, here, later, step, rest, rfl⟩
    exact .cons step rest

theorem runs_singleton_iff {e : Event} :
    Runs j source s [e] os t ↔ s.step j source e = .ok (t, os) := by
  rw [runs_cons_iff]
  constructor
  · rintro ⟨m, here, later, step, rest, rfl⟩
    obtain ⟨rfl, rfl⟩ := runs_nil_iff.1 rest
    rwa [List.append_nil]
  · intro step
    exact ⟨t, os, [], step, .nil t, (List.append_nil os).symm⟩

/-- A run is determined by where it begins. -/
theorem runs_unique {t' : State} {os' : List Output} (h : Runs j source s es os t)
    (h' : Runs j source s es os' t') : os = os' ∧ t = t' := by
  induction h generalizing os' with
  | nil s =>
    obtain ⟨rfl, rfl⟩ := runs_nil_iff.1 h'
    exact ⟨rfl, rfl⟩
  | cons step rest ih =>
    obtain ⟨m, here, later, step', rest', rfl⟩ := runs_cons_iff.1 h'
    rw [step] at step'
    obtain ⟨rfl, rfl⟩ := Prod.mk.inj (Except.ok.inj step')
    obtain ⟨rfl, rfl⟩ := ih rest'
    exact ⟨rfl, rfl⟩

/-- A run over two sequences of events stops between them. -/
theorem runs_append_iff :
    Runs j source s (es ++ es') os t ↔ ∃ m here later,
      Runs j source s es here m ∧ Runs j source m es' later t ∧ os = here ++ later := by
  induction es generalizing s os with
  | nil =>
    constructor
    · intro h
      exact ⟨s, [], os, .nil s, h, rfl⟩
    · rintro ⟨m, here, later, h, h', rfl⟩
      obtain ⟨rfl, rfl⟩ := runs_nil_iff.1 h
      exact h'
  | cons e es ih =>
    rw [List.cons_append, runs_cons_iff]
    constructor
    · rintro ⟨m, first, others, step, rest, rfl⟩
      obtain ⟨m', here, later, h, h', rfl⟩ := ih.1 rest
      exact ⟨m', first ++ here, later, .cons step h, h', (List.append_assoc ..).symm⟩
    · rintro ⟨m, here, later, h, h', rfl⟩
      obtain ⟨m', first, others, step, rest, rfl⟩ := runs_cons_iff.1 h
      exact ⟨m', first, others ++ later, step, ih.2 ⟨m, others, later, rest, h', rfl⟩,
        List.append_assoc ..⟩

end

/-- The plan for some events is a run, unless an error ends it. -/
theorem runs_of_planFrom {j : Judge} {source : String} {s t : State} {es : List Event}
    (h : (planFrom j source s es).ending = .ok t) :
    Runs j source s es (planFrom j source s es).outputs t := by
  induction es generalizing s with
  | nil =>
    simp only [planFrom] at h ⊢
    cases h
    exact .nil t
  | cons e es ih =>
    rw [planFrom] at h ⊢
    split at h
    · simp at h
    · next m os step =>
      simp only at h ⊢
      exact .cons step (ih h)

/-- A plan that no error ends is a run over the events of a stylesheet without a fault. -/
theorem runs_of_planOf {j : Judge} {source : String} {t : State}
    (h : (planOf j source).ending = .ok t) :
    (events source).error = none ∧
      Runs j source (.initial source.utf8ByteSize) (events source).events
        (planOf j source).outputs t := by
  unfold planOf at h ⊢
  dsimp only at h ⊢
  cases hending :
      (planFrom j source (.initial source.utf8ByteSize) (events source).events).ending with
  | error fault => simp [hending] at h
  | ok s =>
    cases herror : (events source).error with
    | some fault => simp [hending, herror] at h
    | none =>
      simp only [hending, herror] at h ⊢
      exact ⟨trivial, runs_of_planFrom (hending.trans h)⟩

/-- What a purge that succeeds leaves: its sink has taken all outputs of a plan that no error ends,
and has been flushed. -/
theorem purge_ok_iff {j : Judge} {source : String} {sink sink' : Sink} {counts : Counts} :
    purge j source sink = ⟨sink', .ok counts⟩ ↔ ∃ s e,
      (planOf j source).ending = .ok s ∧
        (Emitter.ofSink sink).writeAll (planOf j source).outputs = (e, none) ∧ e.flush = none ∧
          e.sink = sink' ∧ counts = { s.counts with bytesOut := e.written } := by
  constructor
  · intro h
    rw [purge] at h
    rcases hwrite : (Emitter.ofSink sink).writeAll (planOf j source).outputs with ⟨e, fault⟩
    rw [hwrite] at h
    cases fault with
    | some fault => simp at h
    | none =>
      obtain ⟨hsink, hresult⟩ := Purged.mk.inj h
      cases hending : (planOf j source).ending with
      | error fault => simp [hending] at hresult
      | ok s =>
        cases hflush : e.flush with
        | some fault => simp [hending, hflush] at hresult
        | none =>
          simp only [hending, hflush, Except.ok.injEq] at hresult
          exact ⟨s, e, rfl, rfl, hflush, hsink, hresult.symm⟩
  · rintro ⟨s, e, hending, hwrite, hflush, rfl, rfl⟩
    rw [purge, hwrite, hending]
    dsimp only
    rw [hflush]

/-- A purge that succeeds runs over the events of a stylesheet without a fault. What it adds to the
sink is the text of its outputs, and it counts what the run has counted. -/
theorem exists_run_of_purge {j : Judge} {source : String} {sink : Sink} {counts : Counts}
    (h : (purge j source sink).result = .ok counts) :
    (events source).error = none ∧ ∃ os t,
      Runs j source (.initial source.utf8ByteSize) (events source).events os t ∧
        (purge j source sink).sink.text = sink.text ++ textOf os ∧
          counts = { t.counts with bytesOut := counts.bytesOut } := by
  have hpurge : purge j source sink = ⟨(purge j source sink).sink, .ok counts⟩ := by rw [← h]
  obtain ⟨t, e, hending, hwrite, -, hsink, hcounts⟩ := purge_ok_iff.1 hpurge
  obtain ⟨herror, hrun⟩ := runs_of_planOf hending
  refine ⟨herror, _, t, hrun, ?_, by rw [hcounts]⟩
  rw [← hsink]
  exact Emitter.writeAll_text hwrite

/-! ## Purges that succeed -/

namespace Emitter

theorem hand_unlimited {e : Emitter} (h : e.sink.limit = none) (ps : List String) :
    e.hand ps = ({ e with
      sink := { e.sink with text := e.sink.text ++ String.join ps }
      written := e.written + (String.join ps).utf8ByteSize }, none) := by
  induction ps generalizing e with
  | nil => simp [hand]
  | cons p ps ih =>
    have htakes : e.sink.takes p = true := by rw [Sink.takes, h, Option.all_none]
    rw [hand, htakes]
    split
    · next hp =>
      obtain rfl : p = "" := by simpa using hp
      rw [ih h]
      simp
    · rw [if_pos rfl, ih (e := { e with
        sink := e.sink.put p, written := e.written + p.utf8ByteSize }) h]
      simp [Sink.put, String.append_assoc, Nat.add_assoc]

/-- A sink without a limit takes all outputs. -/
theorem writeAll_unlimited {e : Emitter} (h : e.sink.limit = none) (os : List Output) :
    e.writeAll os = (⟨{ e.sink with text := e.sink.text ++ textFrom e.due os },
      dueAfter e.due os, e.written + (textFrom e.due os).utf8ByteSize⟩, none) := by
  induction os generalizing e with
  | nil => simp [writeAll, textFrom_nil, dueAfter]
  | cons o os ih =>
    rw [writeAll, write, hand_unlimited (e := { e with due := false }) h]
    dsimp only
    rw [ih (by exact h)]
    simp [textFrom, piecesOf, dueAfter, String.append_assoc, Nat.add_assoc]

end Emitter

theorem planFrom_of_runs {j : Judge} {source : String} {s t : State} {es : List Event}
    {os : List Output} (h : Runs j source s es os t) : planFrom j source s es = ⟨os, .ok t⟩ := by
  induction h with
  | nil s => rfl
  | cons step rest ih =>
    rw [planFrom, step]
    dsimp only
    rw [ih]

/-- What a purge does to a sink without a limit, whatever is in it: it adds the text of its plan. -/
theorem purge_unlimited (j : Judge) (source before : String) :
    purge j source { Sink.unlimited with text := before } =
      ⟨{ Sink.unlimited with text := before ++ textOf (planOf j source).outputs },
        match (planOf j source).ending with
        | .error fault => .error (.sheet fault)
        | .ok s => .ok { s.counts with
            bytesOut := (textOf (planOf j source).outputs).utf8ByteSize }⟩ := by
  rw [purge, Emitter.writeAll_unlimited (e := .ofSink { Sink.unlimited with text := before }) rfl]
  dsimp only [Emitter.ofSink, Sink.unlimited, Emitter.flush]
  rw [Nat.zero_add]
  rfl

/-- A run over the events of a stylesheet without a fault makes a purge succeed, with the counters
that the run ends with. -/
theorem purge_of_runs {j : Judge} {source : String} {os : List Output} {t : State}
    (herror : (events source).error = none)
    (hruns : Runs j source (.initial source.utf8ByteSize) (events source).events os t) :
    purge j source .unlimited = ⟨{ Sink.unlimited with text := textOf os },
      .ok { t.counts with bytesOut := (textOf os).utf8ByteSize }⟩ := by
  have hplan : planOf j source = ⟨os, .ok t⟩ := by
    rw [planOf, planFrom_of_runs hruns, herror]
  have hpurge := purge_unlimited j source ""
  rw [hplan, String.empty_append] at hpurge
  exact hpurge

theorem exists_counts_of_run {j : Judge} {source : String} {os : List Output} {t : State}
    (herror : (events source).error = none)
    (hruns : Runs j source (.initial source.utf8ByteSize) (events source).events os t) :
    ∃ n, (purge j source .unlimited).result = .ok { t.counts with bytesOut := n } :=
  ⟨_, congrArg Purged.result (purge_of_runs herror hruns)⟩

theorem ok_of_toOption {ε α : Type} {x : Except ε α} {a : α} (h : x.toOption = some a) :
    x = .ok a := by
  cases x with
  | error fault => simp [Except.toOption] at h
  | ok b => simpa [Except.toOption] using h

/-- Whether a purge succeeds can be computed. -/
theorem exists_counts_of_isOk {j : Judge} {source : String} {sink : Sink}
    (h : (purge j source sink).result.isOk = true) :
    ∃ counts, (purge j source sink).result = .ok counts := by
  cases hresult : (purge j source sink).result with
  | error fault => simp [hresult, Except.isOk, Except.toBool] at h
  | ok counts => exact ⟨counts, rfl⟩

end StyleSieve.Purge
