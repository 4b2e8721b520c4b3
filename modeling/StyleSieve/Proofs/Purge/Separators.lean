import StyleSieve.Proofs.Purge.Run

/-!
# Separators and refused pieces

The text that an emitter writes, said without its flag: every output has a text of its own, and one
separator stands between a declaration and a text or a declaration directly behind it (`rendered`).

A sink may refuse any piece, for whatever reason and as often as it likes. An emitter over such a
sink is a relation (`Hands`, `Writes`, `Attempts`); `Emitter.write` over a sink with a limit is one
of its runs. Whatever is refused, the emitter counts the bytes that the sink has received
(`Attempts.size_eq`). A sink that takes part of a piece is not treated here.
-/

namespace StyleSieve.Purge

/-! ## Separators -/

/-- The text of an output on its own. -/
def Output.shown : Output → String
  | text t => t
  | declaration property values => property ++ ":" ++ String.join values
  | close => "\x7d"

/-- What stands between two outputs: one separator if a declaration is followed by a text or by
another declaration. -/
def separator : Output → Output → String
  | .declaration .., .text _ => ";"
  | .declaration .., .declaration .. => ";"
  | _, _ => ""

/-- The texts of some outputs with the separators between them. -/
def rendered : List Output → String
  | [] => ""
  | [o] => o.shown
  | o :: next :: os => o.shown ++ separator o next ++ rendered (next :: os)

/-- The separator that is written before an output if one is due. -/
def Output.separated (due : Bool) : Output → String
  | close => ""
  | _ => if due then ";" else ""

theorem join_pieces (due : Bool) (o : Output) :
    String.join (o.pieces due) = o.separated due ++ o.shown := by
  cases o <;> cases due <;>
    simp [Output.pieces, Output.separated, Output.shown, separatorDue, String.append_assoc]

theorem separated_leavesDue (o next : Output) :
    next.separated o.leavesDue = separator o next := by
  cases o <;> cases next <;> rfl

theorem textFrom_cons (due : Bool) (o : Output) (os : List Output) :
    textFrom due (o :: os) = o.separated due ++ o.shown ++ textFrom o.leavesDue os := by
  rw [textFrom, piecesOf, String.join_append, join_pieces, textFrom]

/-- A separator that is due is that of the output before. -/
theorem textFrom_eq_rendered (due : Bool) (o : Output) (os : List Output) :
    textFrom due (o :: os) = o.separated due ++ rendered (o :: os) := by
  induction os generalizing due o with
  | nil => rw [textFrom_cons, textFrom_nil, String.append_empty, rendered]
  | cons next os ih =>
    calc textFrom due (o :: next :: os)
        = o.separated due ++ o.shown ++ textFrom o.leavesDue (next :: os) :=
          textFrom_cons due o (next :: os)
      _ = o.separated due ++ o.shown ++ (separator o next ++ rendered (next :: os)) := by
          rw [ih, separated_leavesDue]
      _ = o.separated due ++ rendered (o :: next :: os) := by
          rw [rendered, String.append_assoc, String.append_assoc]

theorem textOf_eq_rendered (os : List Output) : textOf os = rendered os := by
  cases os with
  | nil => rfl
  | cons o os =>
    have hnone : o.separated false = "" := by cases o <;> rfl
    rw [textOf_eq, textFrom_eq_rendered, hnone, String.empty_append]

/-! ## Sinks that refuse -/

namespace Emitter

/-- Pieces are handed over one by one until one is refused, which may be any of them. Empty pieces
are never handed over. -/
inductive Hands : Emitter → List String → Emitter → Option SinkFault → Prop
  | done (e : Emitter) : Hands e [] e none
  | passed {e e' : Emitter} {ps : List String} {refused : Option SinkFault}
      (rest : Hands e ps e' refused) : Hands e ("" :: ps) e' refused
  | taken {e e' : Emitter} {p : String} {ps : List String} {refused : Option SinkFault}
      (rest : Hands { e with
        sink := e.sink.put p, written := e.written + p.utf8ByteSize } ps e' refused) :
      Hands e (p :: ps) e' refused
  | refused (e : Emitter) (p : String) (ps : List String) (fault : SinkFault) :
      Hands e (p :: ps) e (some fault)

/-- One output is written whole, or as far as its pieces are taken. Either way no separator is left
over from before. -/
inductive Writes : Emitter → Output → Emitter → Prop
  | whole {e e' : Emitter} {o : Output}
      (hands : Hands { e with due := false } (o.pieces e.due) e' none) :
      Writes e o { e' with due := o.leavesDue }
  | broken {e e' : Emitter} {o : Output} {fault : SinkFault}
      (hands : Hands { e with due := false } (o.pieces e.due) e' (some fault)) : Writes e o e'

/-- Outputs are written one after another, also after one that failed. -/
inductive Attempts : Emitter → List Output → Emitter → Prop
  | nil (e : Emitter) : Attempts e [] e
  | cons {e e' e'' : Emitter} {o : Output} {os : List Output} (first : Writes e o e')
      (rest : Attempts e' os e'') : Attempts e (o :: os) e''

/-- The emitter after some outputs, written one after another whether those before them failed or
not. -/
def attempt (e : Emitter) (os : List Output) : Emitter := os.foldl (fun e o => (e.write o).1) e

section

variable {e e' : Emitter} {o : Output} {os : List Output} {ps : List String}
  {refused : Option SinkFault}

/-- The sink has grown by what is counted. -/
theorem Hands.size_eq (h : Hands e ps e' refused) :
    e'.sink.size + e.written = e.sink.size + e'.written := by
  induction h with
  | done e => rfl
  | passed _ ih => exact ih
  | @taken e e' p ps refused _ ih =>
    have hput : (e.sink.put p).size = e.sink.size + p.utf8ByteSize :=
      String.utf8ByteSize_append
    rw [hput] at ih
    dsimp only at ih
    omega
  | refused e => rfl

theorem Writes.size_eq (h : Writes e o e') :
    e'.sink.size + e.written = e.sink.size + e'.written := by
  cases h with
  | whole hands => exact hands.size_eq
  | broken hands => exact hands.size_eq

theorem Attempts.size_eq (h : Attempts e os e') :
    e'.sink.size + e.written = e.sink.size + e'.written := by
  induction h with
  | nil e => rfl
  | cons first _ ih =>
    have hfirst := first.size_eq
    omega

/-- A sink with a limit refuses the pieces for which it has no room. -/
theorem hands_hand (e : Emitter) (ps : List String) :
    Hands e ps (e.hand ps).1 (e.hand ps).2 := by
  induction ps generalizing e with
  | nil => exact .done e
  | cons p ps ih =>
    rw [hand]
    split
    · next hempty =>
      obtain rfl : p = "" := String.isEmpty_iff.1 hempty
      exact .passed (ih e)
    · split
      · exact .taken (ih _)
      · exact .refused e p ps .full

theorem writes_write (e : Emitter) (o : Output) : Writes e o (e.write o).1 := by
  have hhands := hands_hand { e with due := false } (o.pieces e.due)
  rw [write]
  split
  · next e' hhand =>
    rw [hhand] at hhands
    exact .whole hhands
  · next e' fault hhand =>
    rw [hhand] at hhands
    exact .broken hhands

theorem attempts_attempt (e : Emitter) (os : List Output) : Attempts e os (e.attempt os) := by
  induction os generalizing e with
  | nil => exact .nil e
  | cons o os ih => exact .cons (writes_write e o) (ih _)

end

end Emitter

open Emitter in
/-- Over a sink that takes everything an emitter writes the outputs with a separator behind each
declaration that a text or a declaration follows, and nowhere else. Over a sink that refuses
whatever pieces it likes it has counted after every output, failed ones included, the bytes that the
sink has received; writing to a sink with a limit is a case of this. -/
theorem emitter_separates_and_counts :
    (∀ os, ∃ e, (ofSink .unlimited).writeAll os = (e, none) ∧ e.sink.text = rendered os ∧
      e.written = e.sink.size) ∧
      (∀ sink os e, Attempts (ofSink sink) os e → e.sink.size = sink.size + e.written) ∧
      ∀ sink os, Attempts (ofSink sink) os ((ofSink sink).attempt os) := by
  refine ⟨fun os => ?_, fun sink os e h => ?_, fun sink os => attempts_attempt _ os⟩
  · have hwrite := writeAll_unlimited (e := ofSink .unlimited) rfl os
    have htext : textFrom (ofSink .unlimited).due os = rendered os := textOf_eq_rendered os
    have hbefore : (ofSink .unlimited).sink.text = "" := rfl
    rw [htext, hbefore, String.empty_append] at hwrite
    exact ⟨_, hwrite, rfl, Nat.zero_add _⟩
  · have hsize := h.size_eq
    exact hsize

open Emitter in
/-- The separator is refused, the bracket behind it is not. -/
theorem emitter_separates_and_counts_refused :
    ∃ e, Attempts (ofSink .unlimited) [.declaration "a" ["b"], .text "c", .close] e ∧
      e.sink.text = "a:b\x7d" ∧ e.sink.size = Sink.unlimited.size + e.written := by
  have hfirst : Writes (ofSink .unlimited) (.declaration "a" ["b"]) _ :=
    .whole (.taken (.taken (.taken (.done _))))
  have hattempts : Attempts (ofSink .unlimited) [.declaration "a" ["b"], .text "c", .close] _ :=
    .cons hfirst (.cons (.broken (.refused _ ";" ["c"] .full))
      (.cons (.whole (.taken (.done _))) (.nil _)))
  exact ⟨_, hattempts, by decide +kernel, emitter_separates_and_counts.2.1 _ _ _ hattempts⟩

end StyleSieve.Purge
