import StyleSieve.Proofs.Purge.Run

/-!
# Sinks that refuse

A sink with a limit takes the pieces that a purge hands over one after another, up to the first one
that does not fit; then nothing more is handed over, and the purge fails for that reason alone
(`purge_limited`). This does not hang on the plan being made before it is written: a purge that
writes what each event leaves before it reads the next one does the same (`streamed_eq_purge`).

Pieces are taken whole or not at all; a sink that takes part of a piece is not treated here.
-/

namespace StyleSieve.Purge

open Css

namespace Emitter

/-! ## Pieces handed over -/

/-- The emitter when its sink has taken some pieces. -/
def having (e : Emitter) (ps : List String) : Emitter :=
  { e with
    sink := { e.sink with text := e.sink.text ++ String.join ps }
    written := e.written + (String.join ps).utf8ByteSize }

theorem having_nil (e : Emitter) : e.having [] = e := by
  simp [having]

theorem having_having (e : Emitter) (ps ps' : List String) :
    (e.having ps).having ps' = e.having (ps ++ ps') := by
  simp [having, String.join_append, String.append_assoc, Nat.add_assoc]

theorem hand_append (e : Emitter) (ps ps' : List String) : e.hand (ps ++ ps') =
    match e.hand ps with
    | (e', none) => e'.hand ps'
    | (e', some fault) => (e', some fault) := by
  induction ps generalizing e with
  | nil => rfl
  | cons p ps ih =>
    rw [List.cons_append, hand, hand]
    split
    · exact ih e
    · split
      · exact ih _
      · rfl

theorem due_hand (e : Emitter) (ps : List String) : (e.hand ps).1.due = e.due := by
  induction ps generalizing e with
  | nil => rfl
  | cons p ps ih =>
    rw [hand]
    split
    · exact ih e
    · split
      · exact ih _
      · rfl

/-- Empty pieces are never handed over. -/
theorem hand_filter (e : Emitter) (ps : List String) :
    e.hand (ps.filter (!·.isEmpty)) = e.hand ps := by
  induction ps generalizing e with
  | nil => rfl
  | cons p ps ih =>
    rw [List.filter_cons, hand]
    cases hp : p.isEmpty with
    | true => simpa using ih e
    | false => simp [hand, hp, ih]

/-- A sink with a limit takes all pieces if they fit, else those before the first one that does
not. -/
theorem hand_limited {e : Emitter} {n : Nat} (hlimit : e.sink.limit = some n)
    (hroom : e.sink.size ≤ n) {ps : List String} (hps : ∀ p ∈ ps, p.isEmpty = false) :
    (e.sink.size + (String.join ps).utf8ByteSize ≤ n ∧ e.hand ps = (e.having ps, none)) ∨
      ∃ front p back, ps = front ++ p :: back ∧
        e.sink.size + (String.join front).utf8ByteSize ≤ n ∧
        n < e.sink.size + (String.join front).utf8ByteSize + p.utf8ByteSize ∧
        e.hand ps = (e.having front, some .full) := by
  induction ps generalizing e with
  | nil => exact .inl ⟨by simpa using hroom, by rw [hand, having_nil]⟩
  | cons p ps ih =>
    have htakes : e.sink.takes p = decide (e.sink.size + p.utf8ByteSize ≤ n) := by
      rw [Sink.takes, hlimit, Option.all_some]
    rw [hand, if_neg (by simp [hps p List.mem_cons_self]), htakes]
    by_cases hfits : e.sink.size + p.utf8ByteSize ≤ n
    · rw [if_pos (by simpa using hfits)]
      have hnext : { e with sink := e.sink.put p, written := e.written + p.utf8ByteSize } =
          e.having [p] := by simp [having, Sink.put]
      have hsize : (e.having [p]).sink.size = e.sink.size + p.utf8ByteSize := by
        simp [having, Sink.size]
      rw [hnext]
      have hrest := ih (e := e.having [p]) hlimit (hsize ▸ hfits)
        fun q hq => hps q (List.mem_cons_of_mem p hq)
      simp only [hsize, having_having, List.singleton_append] at hrest
      rcases hrest with ⟨hall, hhand⟩ | ⟨front, q, back, rfl, hfront, hover, hhand⟩
      · exact .inl ⟨by simpa [Nat.add_assoc] using hall, hhand⟩
      · refine .inr ⟨p :: front, q, back, by simp, ?_, ?_, hhand⟩
        · simpa [Nat.add_assoc] using hfront
        · simpa [Nat.add_assoc] using hover
    · rw [if_neg (by simpa using hfits)]
      refine .inr ⟨[], p, ps, by simp, by simpa using hroom, by simp; omega, ?_⟩
      rw [having_nil]

/-! ## Outputs -/

/-- Outputs are handed over as their pieces, one after another. -/
theorem writeAll_eq_hand (e : Emitter) (os : List Output) : e.writeAll os =
    match hand { e with due := false } (piecesOf e.due os) with
    | (e', none) => ({ e' with due := dueAfter e.due os }, none)
    | (e', some fault) => (e', some fault) := by
  induction os generalizing e with
  | nil => rfl
  | cons o os ih =>
    rw [writeAll, write, piecesOf, hand_append]
    have hdue := due_hand { e with due := false } (o.pieces e.due)
    rcases hhand : hand { e with due := false } (o.pieces e.due) with ⟨e', fault⟩
    rw [hhand] at hdue
    cases fault with
    | some fault => rfl
    | none =>
      rcases e' with ⟨sink, due, written⟩
      obtain rfl : due = false := hdue
      exact ih ⟨sink, o.leavesDue, written⟩

end Emitter

/-! ## Writing while reading -/

/-- Events followed from a state, where what each of them leaves is written before the next one is
read. -/
def streamedFrom (j : Judge) (source : String) (s : State) (e : Emitter) :
    List Event → Emitter × Except PurgeError State
  | [] => (e, .ok s)
  | event :: events =>
    match s.step j source event with
    | .error fault => (e, .error (.sheet fault))
    | .ok (s, os) =>
      match e.writeAll os with
      | (e, some fault) => (e, .error (.unwritten fault))
      | (e, none) => streamedFrom j source s e events

/-- A purge that writes while it reads. -/
def streamed (j : Judge) (source : String) (sink : Sink) : Purged :=
  let outcome := events source
  match streamedFrom j source (.initial source.utf8ByteSize) (.ofSink sink) outcome.events with
  | (e, .error fault) => ⟨e.sink, .error fault⟩
  | (e, .ok s) =>
    match outcome.error with
    | some fault => ⟨e.sink, .error (.sheet (.malformed fault))⟩
    | none =>
      ⟨e.sink, match e.flush with
        | some fault => .error (.unwritten fault)
        | none => .ok { s.counts with bytesOut := e.written }⟩

theorem streamedFrom_eq (j : Judge) (source : String) (s : State) (e : Emitter)
    (events : List Event) : streamedFrom j source s e events =
      match e.writeAll (planFrom j source s events).outputs with
      | (e', some fault) => (e', .error (.unwritten fault))
      | (e', none) => (e', match (planFrom j source s events).ending with
        | .error fault => .error (.sheet fault)
        | .ok t => .ok t) := by
  induction events generalizing s e with
  | nil => rfl
  | cons event events ih =>
    rw [streamedFrom, planFrom]
    cases s.step j source event with
    | error fault => rfl
    | ok next =>
      obtain ⟨t, os⟩ := next
      dsimp only
      rw [Emitter.writeAll_append]
      rcases e.writeAll os with ⟨e', fault⟩
      cases fault with
      | some fault => rfl
      | none => exact ih t e'

/-- It does not matter whether a plan is made before it is written. -/
theorem streamed_eq_purge (j : Judge) (source : String) (sink : Sink) :
    streamed j source sink = purge j source sink := by
  rw [streamed, purge, planOf]
  dsimp only
  rw [streamedFrom_eq]
  rcases planFrom j source (.initial source.utf8ByteSize) (events source).events with
    ⟨outputs, fault | t⟩
  · dsimp only
    rcases (Emitter.ofSink sink).writeAll outputs with ⟨e, _ | refused⟩ <;> rfl
  · cases (events source).error
    all_goals
      dsimp only
      rcases (Emitter.ofSink sink).writeAll outputs with ⟨e, _ | refused⟩ <;> rfl

/-! ## Limits -/

/-- The pieces that a purge hands over to a sink that takes them all. -/
def piecesFor (j : Judge) (source : String) : List String :=
  (piecesOf false (planOf j source).outputs).filter (!·.isEmpty)

/-- What a purge does to a sink whose emitter has handed over all pieces. -/
theorem purge_eq_hand (j : Judge) (source : String) (sink : Sink) : purge j source sink =
    match (Emitter.ofSink sink).hand (piecesFor j source) with
    | (e, some fault) => ⟨e.sink, .error (.unwritten fault)⟩
    | (e, none) =>
      ⟨e.sink, match (planOf j source).ending with
        | .error fault => .error (.sheet fault)
        | .ok s =>
          match e.flush with
          | some fault => .error (.unwritten fault)
          | none => .ok { s.counts with bytesOut := e.written }⟩ := by
  have hwrite := Emitter.writeAll_eq_hand (.ofSink sink) (planOf j source).outputs
  have hsame : { Emitter.ofSink sink with due := false } = .ofSink sink := rfl
  have hdue : (Emitter.ofSink sink).due = false := rfl
  rw [hsame, hdue] at hwrite
  rw [purge, hwrite, piecesFor, Emitter.hand_filter]
  rcases (Emitter.ofSink sink).hand _ with ⟨e, refused⟩
  cases refused <;> rfl

theorem isEmpty_of_mem_piecesFor {j : Judge} {source p : String} (h : p ∈ piecesFor j source) :
    p.isEmpty = false := by
  simpa using (List.mem_filter.1 h).2

/-- A purge into a sink with a limit does what a purge without the limit does if all its pieces fit.
Otherwise the sink holds the pieces before the first one that does not fit, and the purge fails for
that one. Either way it stops reading where it stops writing. -/
theorem purge_limited (j : Judge) (source : String) (failsFlush : Bool) (n : Nat) :
    let whole := purge j source ⟨none, failsFlush, ""⟩
    let cut := purge j source ⟨some n, failsFlush, ""⟩
    whole.sink.text = String.join (piecesFor j source) ∧
      (whole.sink.size ≤ n → cut.sink.text = whole.sink.text ∧ cut.result = whole.result) ∧
      (n < whole.sink.size → cut.result = .error (.unwritten .full) ∧
        ∃ front p back, piecesFor j source = front ++ p :: back ∧
          cut.sink.text = String.join front ∧
          cut.sink.size ≤ n ∧ n < cut.sink.size + p.utf8ByteSize) ∧
      ∀ sink, streamed j source sink = purge j source sink := by
  intro whole cut
  have hwhole : (Emitter.ofSink ⟨none, failsFlush, ""⟩).hand (piecesFor j source) =
      ((Emitter.ofSink ⟨none, failsFlush, ""⟩).having (piecesFor j source), none) :=
    Emitter.hand_unlimited rfl _
  have htext : whole.sink.text = String.join (piecesFor j source) := by
    simp only [whole, purge_eq_hand, hwhole]
    simp [Emitter.having, Emitter.ofSink]
  have hsize : whole.sink.size = (String.join (piecesFor j source)).utf8ByteSize := by
    rw [Sink.size, htext]
  have hroom : Sink.size ⟨some n, failsFlush, ""⟩ ≤ n := Nat.zero_le n
  have hfilled : ∀ p ∈ piecesFor j source, p.isEmpty = false := fun p =>
    isEmpty_of_mem_piecesFor
  have hcut := Emitter.hand_limited (e := .ofSink ⟨some n, failsFlush, ""⟩) rfl hroom hfilled
  have hempty : (Emitter.ofSink ⟨some n, failsFlush, ""⟩).sink.size = 0 := rfl
  simp only [hempty, Nat.zero_add] at hcut
  refine ⟨htext, fun hfits => ?_, fun hover => ?_, streamed_eq_purge j source⟩
  · rcases hcut with ⟨-, hhand⟩ | ⟨front, p, back, hpieces, -, hover, -⟩
    · simp only [whole, cut, purge_eq_hand, hwhole, hhand]
      exact ⟨rfl, rfl⟩
    · rw [hsize, hpieces] at hfits
      simp only [String.join_append, String.join_cons, String.utf8ByteSize_append] at hfits
      omega
  · rcases hcut with ⟨hfits, -⟩ | ⟨front, p, back, hpieces, hfront, hp, hhand⟩
    · omega
    · have htext' : cut.sink.text = String.join front := by
        simp only [cut, purge_eq_hand, hhand]
        exact String.empty_append
      refine ⟨by simp only [cut, purge_eq_hand, hhand], front, p, back, hpieces, htext', ?_, ?_⟩
      · rwa [Sink.size, htext']
      · rwa [Sink.size, htext']

end StyleSieve.Purge
