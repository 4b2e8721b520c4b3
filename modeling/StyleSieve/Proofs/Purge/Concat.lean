import StyleSieve.Proofs.Css.Concat
import StyleSieve.Proofs.Css.Places
import StyleSieve.Proofs.Purge.Fonts
import StyleSieve.Proofs.Usage.Concat

/-!
# Purging stylesheets one after another
-/

namespace StyleSieve.Purge

open Css
open Text (slice Cut)
open Usage (References ofSheet_append)

/-! ## A run in a longer text -/

/-- The mode in a text that stands so many bytes later. -/
def Mode.shift (n : Nat) : Mode → Mode
  | .keyframes keep start depth => .keyframes keep (n + start) depth
  | mode => mode

/-- The state of a run that has counted more before, in a text that stands so many bytes later. -/
def State.moved (n : Nat) (c : Counts) (s : State) : State :=
  { s with mode := s.mode.shift n, counts := c + s.counts }

def Step.moved (n : Nat) (c : Counts) (p : Step) : Step := (p.1.moved n c, p.2)

namespace State

variable {n : Nat} {c : Counts} {s : State} {e : Event} {j : Judge} {source source' : String}

theorem moved_put (s : State) (os : List Output) :
    (s.moved n c).put os = Step.moved n c (s.put os) := by
  rcases s with ⟨mode, blocks, retained, face, counts⟩
  cases face <;> rfl

theorem moved_putInside (s : State) (os : List Output) :
    (s.moved n c).putInside os = Step.moved n c (s.putInside os) := by
  have hopen : (s.moved n c).openAll = Step.moved n c s.openAll := rfl
  rw [putInside, hopen, Step.moved]
  dsimp only
  rw [moved_put]
  rfl

theorem moved_comment (s : State) (e : Event) :
    (s.moved n c).comment (e.shift n) = Step.moved n c (s.comment e) := by
  rw [comment, comment, Event.shift_data]
  split
  · exact moved_put s _
  · rfl

theorem moved_selector (s : State) (e : Event) :
    (s.moved n c).selector j (e.shift n) = (s.selector j e).map (Step.moved n c) := by
  rw [selector, selector, Event.shift_text]
  cases Selector.parse e.text with
  | error cause => rfl
  | ok chain =>
    dsimp only
    split
    · exact congrArg Except.ok (moved_putInside { s with
        retained := true
        counts := { s.counts with selectorsKept := s.counts.selectorsKept + 1 } } _)
    · rfl

theorem moved_rulesetStart (s : State) (e : Event) :
    (s.moved n c).rulesetStart j (e.shift n) = (s.rulesetStart j e).map (Step.moved n c) := by
  rw [rulesetStart, rulesetStart, moved_selector]
  cases s.selector j e with
  | error fault => rfl
  | ok p =>
    rcases p with ⟨t, before⟩
    have hput := moved_put (n := n) (c := c) { t with retained := false } [.text "\x7b"]
    have hretained : (t.moved n c).retained = t.retained := rfl
    have hmap : Except.map (Step.moved n c) (.ok (t, before) : Except Usage.SheetError Step) =
      .ok (t.moved n c, before) := rfl
    rw [hmap]
    dsimp only
    rw [hretained]
    split
    · exact congrArg (fun p : Step => Except.ok (p.1, before ++ p.2)) hput
    · rfl

theorem moved_declaration (s : State) (e : Event) :
    (s.moved n c).declaration (e.shift n) = Step.moved n c (s.declaration e) := by
  rw [declaration, declaration, Event.shift_data, Event.shift_text, Event.shift_values, ← moved_put]
  rfl

theorem moved_blockStart (s : State) (e : Event) :
    (s.moved n c).blockStart j (e.shift n) = Step.moved n c (s.blockStart j e) := by
  have hface : (s.moved n c).fontFace = s.fontFace := rfl
  rw [blockStart, blockStart, Event.shift_atName, hface]
  by_cases hkeyframes : isKeyframes e.atName = true
  · rw [if_pos hkeyframes, if_pos hkeyframes]
    simp only [moved, Step.moved, Mode.shift, Counts.add_def, Nat.add_assoc, Event.shift_start,
      Event.shift_text]
    rfl
  rw [if_neg hkeyframes, if_neg hkeyframes]
  by_cases hconditional : isConditional e.atName = true
  · rw [if_pos hconditional, if_pos hconditional]
    rfl
  rw [if_neg hconditional, if_neg hconditional]
  by_cases hfontFace : (isFontFace e.atName && s.fontFace.isNone) = true
  · rw [if_pos hfontFace, if_pos hfontFace]
    rfl
  rw [if_neg hfontFace, if_neg hfontFace, Event.shift_prelude, moved_putInside]
  rfl

theorem moved_fontFaceEnd (s : State) (face : FontFace) :
    (s.moved n c).fontFaceEnd j face = Step.moved n c (s.fontFaceEnd j face) := by
  rw [fontFaceEnd, fontFaceEnd]
  split
  · exact moved_putInside { s with fontFace := none } _
  · rfl

theorem moved_blockEnd (s : State) :
    (s.moved n c).blockEnd j = Step.moved n c (s.blockEnd j) := by
  have hblocks : (s.moved n c).blocks = s.blocks := rfl
  have hface : (s.moved n c).fontFace = s.fontFace := rfl
  rw [blockEnd, blockEnd, hblocks, hface]
  split
  · rfl
  · exact moved_fontFaceEnd { s with blocks := s.blocks.drop 1 } _
  · rfl
  · exact moved_put { s with blocks := s.blocks.drop 1 } _

theorem moved_kept (s : State) (e : Event) :
    (s.moved n c).kept j (e.shift n) = (s.kept j e).map (Step.moved n c) := by
  rw [kept, kept, Event.shift_kind]
  cases e.kind with
  | comment => exact congrArg Except.ok (moved_comment s e)
  | selector => exact moved_selector s e
  | rulesetStart => exact moved_rulesetStart s e
  | rulesetEnd => exact congrArg Except.ok (moved_put s _)
  | declaration => exact congrArg Except.ok (moved_declaration s e)
  | customDeclaration => exact congrArg Except.ok (moved_declaration s e)
  | statement => exact congrArg Except.ok (moved_putInside s _)
  | blockStart => exact congrArg Except.ok (moved_blockStart s e)
  | blockEnd => exact congrArg Except.ok (moved_blockEnd s)

theorem moved_inRemoved (s : State) (depth : Nat) (e : Event) :
    (s.moved n c).inRemoved depth (e.shift n) = (s.inRemoved depth e).moved n c := by
  rw [inRemoved, inRemoved, Event.shift_kind, moved, moved]
  dsimp only
  split <;> split <;> rfl

theorem moved_inKeyframes (s : State) {start : Nat} (keep : Bool) (depth : Nat)
    (hslice : slice source' (n + start) (n + e.span.stop) = slice source start e.span.stop) :
    (s.moved n c).inKeyframes source' keep (n + start) depth (e.shift n) =
      Step.moved n c (s.inKeyframes source keep start depth e) := by
  rw [inKeyframes, inKeyframes, Event.shift_kind, Event.shift_stop, hslice]
  split
  all_goals
    split
    · rfl
    · split
      · exact moved_putInside { s with mode := .keeping } _
      · rfl

/-- A step does the same in a text in which the same slice is found. -/
theorem step_moved (hslice : ∀ keep start depth, s.mode = .keyframes keep start depth →
      slice source' (n + start) (n + e.span.stop) = slice source start e.span.stop) :
    (s.moved n c).step j source' (e.shift n) = (s.step j source e).map (Step.moved n c) := by
  have hmode : (s.moved n c).mode = s.mode.shift n := rfl
  rw [step, step, hmode]
  cases hs : s.mode with
  | keeping => exact moved_kept s e
  | skipping depth => exact congrArg (fun t => Except.ok (t, [])) (moved_inRemoved s depth e)
  | keyframes keep start depth =>
    exact congrArg Except.ok (moved_inKeyframes s keep depth (hslice keep start depth hs))

/-! ## Where the definition of an animation begins -/

/-- The definition of an animation that is being read, if there is one, begins at an offset of which
`P` holds. -/
def BeginsAt (P : Nat → Prop) (s : State) : Prop :=
  ∀ keep start depth, s.mode = .keyframes keep start depth → P start

theorem mode_put (s : State) (os : List Output) : (s.put os).1.mode = s.mode := by
  rw [put]
  split <;> rfl

theorem mode_putInside (s : State) (os : List Output) : (s.putInside os).1.mode = s.mode :=
  mode_put _ os

theorem mode_comment (s : State) (e : Event) : (s.comment e).1.mode = s.mode := by
  rw [comment]
  split
  · exact mode_put s _
  · rfl

theorem mode_declaration (s : State) (e : Event) : (s.declaration e).1.mode = s.mode :=
  mode_put _ _

theorem mode_blockEnd (j : Judge) (s : State) : (s.blockEnd j).1.mode = s.mode := by
  rw [blockEnd]
  split
  · rfl
  · rw [fontFaceEnd]
    split
    · exact mode_putInside _ _
    · rfl
  · rfl
  · exact mode_put _ _

variable {P : Nat → Prop} {t : State} {os : List Output}

theorem mode_selector (h : s.selector j e = .ok (t, os)) : t.mode = s.mode := by
  rw [selector] at h
  split at h
  · contradiction
  · split at h <;> obtain ⟨rfl, rfl⟩ := Prod.mk.inj (Except.ok.inj h)
    · exact mode_putInside _ _
    · rfl

theorem beginsAt_of_mode (h : t.mode = .keeping) : t.BeginsAt P := by
  intro keep start depth hmode
  rw [h] at hmode
  contradiction

theorem beginsAt_rulesetStart (hs : s.mode = .keeping) (hstep : s.rulesetStart j e = .ok (t, os)) :
    t.BeginsAt P := by
  rw [rulesetStart] at hstep
  split at hstep
  · contradiction
  · next m before hselector =>
    split at hstep <;> obtain ⟨rfl, rfl⟩ := Prod.mk.inj (Except.ok.inj hstep)
    · exact beginsAt_of_mode ((mode_put _ _).trans ((mode_selector hselector).trans hs))
    · rintro keep start depth ⟨⟩

theorem beginsAt_blockStart (hs : s.mode = .keeping) (he : P e.span.start) :
    (s.blockStart j e).1.BeginsAt P := by
  rw [blockStart]
  split
  · rintro keep start depth hmode
    obtain ⟨rfl, rfl, rfl⟩ := Mode.keyframes.inj hmode
    exact he
  · split
    · exact beginsAt_of_mode hs
    · split
      · exact beginsAt_of_mode hs
      · exact beginsAt_of_mode ((mode_putInside s _).trans hs)

/-- The definition of an animation begins with the event that is read. -/
theorem beginsAt_kept (hs : s.mode = .keeping) (hstep : s.kept j e = .ok (t, os))
    (he : P e.span.start) : t.BeginsAt P := by
  have hplain : ∀ {p : Step}, p.1.mode = s.mode →
      .ok p = (.ok (t, os) : Except Usage.SheetError Step) → t.BeginsAt P := by
    rintro p hmode hp
    obtain rfl := Except.ok.inj hp
    exact beginsAt_of_mode (hmode.trans hs)
  rw [kept] at hstep
  cases hkind : e.kind <;> rw [hkind] at hstep
  case comment => exact hplain (mode_comment s e) hstep
  case selector => exact beginsAt_of_mode ((mode_selector hstep).trans hs)
  case rulesetStart => exact beginsAt_rulesetStart hs hstep
  case rulesetEnd => exact hplain (mode_put s _) hstep
  case declaration => exact hplain (mode_declaration s e) hstep
  case customDeclaration => exact hplain (mode_declaration s e) hstep
  case statement => exact hplain (mode_putInside s _) hstep
  case blockStart =>
    have hblock := beginsAt_blockStart (j := j) hs he
    rwa [Except.ok.inj hstep] at hblock
  case blockEnd => exact hplain (mode_blockEnd j s) hstep

theorem beginsAt_inKeyframes (s : State) {start : Nat} (keep : Bool) (depth : Nat) (h : P start) :
    (s.inKeyframes source keep start depth e).1.BeginsAt P := by
  rw [inKeyframes]
  split
  all_goals
    split
    · rintro keep' start' depth' hmode
      obtain ⟨rfl, rfl, rfl⟩ := Mode.keyframes.inj hmode
      exact h
    · split
      · exact beginsAt_of_mode (mode_putInside _ _)
      · exact beginsAt_of_mode rfl

theorem BeginsAt.step (h : s.BeginsAt P) (hstep : s.step j source e = .ok (t, os))
    (he : P e.span.start) : t.BeginsAt P := by
  rw [State.step] at hstep
  cases hs : s.mode with
  | keeping =>
    rw [hs] at hstep
    exact beginsAt_kept hs hstep he
  | skipping depth =>
    rw [hs] at hstep
    obtain ⟨rfl, rfl⟩ := Prod.mk.inj (Except.ok.inj hstep)
    intro keep start depth ht
    rw [inRemoved] at ht
    split at ht <;> split at ht <;> contradiction
  | keyframes keep start depth =>
    have hnext : (s.inKeyframes source keep start depth e).1.BeginsAt P :=
      beginsAt_inKeyframes s keep depth (h keep start depth hs)
    rw [hs] at hstep
    rwa [Except.ok.inj hstep] at hnext

end State

/-- A run does the same in a text in which the same slices are found. -/
theorem Runs.moved {j : Judge} {source : String} {s t : State} {es : List Event}
    {os : List Output} {P : Nat → Prop} {n : Nat} (h : Runs j source s es os t) (source' : String)
    (hslice : ∀ start stop, P start → P stop →
      slice source' (n + start) (n + stop) = slice source start stop)
    (hes : ∀ e ∈ es, P e.span.start ∧ P e.span.stop) (hs : s.BeginsAt P) (c : Counts) :
    Runs j source' (s.moved n c) (es.map (.shift n)) os (t.moved n c) := by
  induction h with
  | nil s => exact .nil _
  | @cons s s' t e es os os' step rest ih =>
    obtain ⟨hstart, hstop⟩ := hes e List.mem_cons_self
    have hstep := State.step_moved (n := n) (c := c) (j := j) (e := e) (s := s)
      fun keep start depth hmode => hslice start e.span.stop (hs keep start depth hmode) hstop
    rw [step] at hstep
    exact .cons hstep (ih (fun e he => hes e (List.mem_cons_of_mem _ he)) (hs.step step hstart))

/-! ## The end of a stylesheet -/

/-- If the marks end with something, that is no declaration. -/
def Complete (ms : List Mark) : Prop := ∀ m ∈ ms.getLast?, m.output.leavesDue = false

namespace Complete

variable {ms ms' : List Mark}

theorem nil : Complete [] := by simp [Complete]

theorem append (h : Complete ms) (h' : Complete ms') : Complete (ms ++ ms') := by
  intro m hm
  rw [List.getLast?_append] at hm
  cases hends : ms'.getLast? with
  | none =>
    rw [hends] at hm
    exact h m hm
  | some m' =>
    rw [hends] at hm
    exact h' m (hends ▸ hm)

/-- A block is complete whatever is inside it. -/
theorem closed (ms : List Mark) (e : Event) : Complete (ms ++ [.closes e]) := by
  intro m hm
  rw [List.getLast?_concat] at hm
  obtain rfl := Option.some.inj hm
  rfl

/-- The head of a group is no declaration. -/
theorem openings (heads : List Event) : Complete (openings heads) := by
  intro m hm
  obtain ⟨e, -, hm⟩ := List.mem_flatMap.1 (List.mem_of_getLast? hm)
  simp only [List.mem_cons, List.not_mem_nil, or_false] at hm
  rcases hm with rfl | rfl <;> rfl

end Complete

structure Written.Complete (w : Written) : Prop where
  lead : Purge.Complete w.lead
  rest : Purge.Complete (w.rest.getD [])

namespace Written.Complete

variable {w w' : Written} {ms : List Mark}

theorem nothing : Written.nothing.Complete := ⟨.nil, .nil⟩

theorem inside (h : Purge.Complete ms) : (Written.inside ms).Complete := ⟨.nil, h⟩

theorem marks (h : w.Complete) : Purge.Complete w.marks := h.lead.append h.rest

theorem append (h : w.Complete) (h' : w'.Complete) : (w.append w').Complete := by
  rcases w with ⟨lead, _ | rest⟩
  · exact ⟨h.lead.append h'.lead, h'.rest⟩
  · exact ⟨h.lead, h.rest.append h'.marks⟩

theorem group (h : w.Complete) (head : Event) : (w.group head).Complete := by
  rcases w with ⟨lead, _ | rest⟩
  · exact h
  · exact ⟨h.lead, .closed _ head⟩

end Written.Complete

theorem complete_writtenFont (j : Judge) (source : String) (head : Event) (body : List Node) :
    Complete (writtenFont j source head body) := by
  rw [writtenFont]
  split
  · exact (Complete.openings _).append (.closed _ head)
  · exact (Complete.openings _).append .nil

mutual

/-- No separator is due after a node that stands among rules. -/
theorem complete_written (j : Judge) (source : String) : ∀ {n : Node}, n.Fits .rules →
    (written j source n).Complete
  | .comment e, _ => by
    rw [written]
    split
    · exact ⟨by rintro m ⟨⟩; rfl, .nil⟩
    · exact ⟨.nil, .nil⟩
  | .statement e, _ => by
    rw [written]
    exact .inside (by rintro m ⟨⟩; rfl)
  | .ruleset earlier last body stop, _ => by
    rw [written]
    split
    · rw [← List.cons_append, ← List.append_assoc]
      exact .inside (.closed _ last)
    · exact .nothing
  | .block head body stop, .block hhead hstop fits => by
    rw [written]
    split
    · split
      · exact .inside (by rintro m ⟨⟩; rfl)
      · exact .nothing
    · split
      · next hconditional =>
        rw [Context.ofAtRule_of_isConditional hconditional] at fits
        exact (complete_writtenIn j source fits).group head
      · split
        · split
          · exact .inside (complete_writtenFont j source head body)
          · exact .nothing
        · exact .inside (.closed _ head)

/-- No separator is due after nodes that stand among rules. -/
theorem complete_writtenIn (j : Judge) (source : String) : ∀ {ns : List Node},
    (∀ n ∈ ns, n.Fits .rules) → (writtenIn j source ns).Complete
  | [], _ => by
    rw [writtenIn]
    exact .nothing
  | n :: ns, fits => by
    rw [writtenIn]
    exact (complete_written j source (fits n List.mem_cons_self)).append
      (complete_writtenIn j source fun m hm => fits m (List.mem_cons_of_mem n hm))

end

/-- After the events of a stylesheet a run is back where it began, but for the counters, and no
separator is due. -/
theorem idle_of_runs {j : Judge} {source : String} {n : Nat} {os : List Output} {t : State}
    (herror : (events source).error = none)
    (hruns : Runs j source (.initial n) (events source).events os t) :
    t = { State.initial n with counts := t.counts } ∧ dueAfter false os = false := by
  have hfits := outline_fits herror
  rw [← outline_events herror] at hruns
  have hadvance := advance_writeIn hfits hruns (d := .start) ⟨rfl, rfl, rfl⟩ rfl
  have hheld : (Draft.writeIn j source (outline source) .start).held = none := by
    rw [write_of_none_in j source rfl]
    rfl
  constructor
  · have hmode := hadvance.mode
    have hretained := hadvance.retained
    have hface := hadvance.fontFace
    have hblocks := hadvance.blocks
    rw [hheld] at hface
    have hsettled : settled (State.initial n).blocks
        (Draft.writeIn j source (outline source) .start).pending = [] := by
      unfold settled
      split <;> rfl
    rw [hsettled] at hblocks
    rcases t with ⟨mode, blocks, retained, face, counts⟩
    simp only at hmode hretained hface hblocks
    subst hmode hretained hface hblocks
    rfl
  · obtain ⟨ms, hms, halike⟩ := hadvance.out
    have hmarks : ms = marksOf j source := hms.symm
    have hlast : Complete ms := by
      rw [hmarks, marksOf_eq]
      exact (complete_writtenIn j source hfits).marks
    rw [halike.due]
    rcases List.eq_nil_or_concat ms with rfl | ⟨front, m, rfl⟩
    · rfl
    · rw [List.concat_eq_append] at hlast ⊢
      rw [List.map_append, dueAfter_append]
      exact hlast m List.getLast?_concat

/-- The plan for two stylesheets, one after another, if the first ends with a block. -/
theorem planOf_append {j : Judge} {source next : String} {s t : State} (h : EndsInBlock source)
    (hs : (planOf j source).ending = .ok s) (ht : (planOf j next).ending = .ok t) :
    planOf j (source ++ next) = ⟨(planOf j source).outputs ++ (planOf j next).outputs,
        .ok (t.moved (Text.width source.toList) s.counts)⟩ ∧
      dueAfter false (planOf j source).outputs = false := by
  obtain ⟨herror, hruns⟩ := runs_of_planOf hs
  obtain ⟨herror', hruns'⟩ := runs_of_planOf ht
  obtain ⟨hidle, hdue⟩ := idle_of_runs herror hruns
  refine ⟨?_, hdue⟩
  have hfirst := hruns.moved (source ++ next) (n := 0) (P := Cut source)
    (fun start stop hstart hstop => by
      rw [Nat.zero_add, Nat.zero_add]
      exact Text.slice_append_right hstart hstop next)
    (fun e he => ⟨(covers_of_mem_events he).start,
      (covers_of_mem_events he).stop⟩)
    (State.beginsAt_of_mode rfl) { Counts.zero with bytesIn := next.utf8ByteSize }
  have hsecond := hruns'.moved (source ++ next) (n := Text.width source.toList)
    (P := fun _ => True) (fun start stop _ _ => Text.slice_append_left source next start stop)
    (fun _ _ => ⟨trivial, trivial⟩) (State.beginsAt_of_mode rfl) s.counts
  have hinitial : (State.initial source.utf8ByteSize).moved 0
      { Counts.zero with bytesIn := next.utf8ByteSize } =
        .initial (source ++ next).utf8ByteSize := by
    rw [String.utf8ByteSize_append, Nat.add_comm]
    rfl
  have hbetween : s.moved 0 { Counts.zero with bytesIn := next.utf8ByteSize } =
      (State.initial next.utf8ByteSize).moved (Text.width source.toList) s.counts := by
    rw [hidle]
    exact congrArg (State.mk .keeping [] false none) (Counts.add_comm _ _)
  rw [hinitial, Event.map_shift_zero, hbetween] at hfirst
  have hevents := h.events_append herror next
  have hboth := runs_append_iff.2 ⟨_, _, _, hfirst, hsecond, rfl⟩
  have hall : (events source).events ++
      (events next).events.map (.shift (Text.width source.toList)) =
        (events (source ++ next)).events := by
    rw [hevents, Outcome.events_append herror]
    rfl
  rw [hall] at hboth
  have hclean : (events (source ++ next)).error = none := by
    rw [hevents, Outcome.error_append_eq_none]
    exact ⟨herror, by rw [Outcome.shift, herror']; rfl⟩
  rw [planOf, planFrom_of_runs hboth, hclean]

/-! ## Two stylesheets in one sink -/

namespace Emitter

/-- The emitter when so many bytes more have been written before. -/
def ahead (w : Nat) (e : Emitter) : Emitter := { e with written := w + e.written }

theorem hand_ahead (w : Nat) (e : Emitter) (ps : List String) :
    (e.ahead w).hand ps = ((e.hand ps).1.ahead w, (e.hand ps).2) := by
  induction ps generalizing e with
  | nil => rfl
  | cons p ps ih =>
    have hsink : (e.ahead w).sink = e.sink := rfl
    rw [hand, hand, hsink]
    split
    · exact ih e
    · split
      · rw [← ih]
        simp [ahead, Nat.add_assoc]
      · rfl

theorem write_ahead (w : Nat) (e : Emitter) (o : Output) :
    (e.ahead w).write o = ((e.write o).1.ahead w, (e.write o).2) := by
  have hhand := hand_ahead w { e with due := false } (o.pieces e.due)
  rcases hpieces : hand { e with due := false } (o.pieces e.due) with ⟨e', fault⟩
  rw [hpieces] at hhand
  have hahead : hand { e.ahead w with due := false } (o.pieces (e.ahead w).due) =
    (e'.ahead w, fault) := hhand
  rw [write, write, hpieces, hahead]
  cases fault <;> rfl

/-- What was counted before does not matter to what is written. -/
theorem writeAll_ahead (w : Nat) (e : Emitter) (os : List Output) :
    (e.ahead w).writeAll os = ((e.writeAll os).1.ahead w, (e.writeAll os).2) := by
  induction os generalizing e with
  | nil => rfl
  | cons o os ih =>
    rw [writeAll, writeAll, write_ahead]
    rcases e.write o with ⟨e', fault⟩
    cases fault with
    | none => exact ih e'
    | some fault => rfl

theorem due_writeAll {e e' : Emitter} {os : List Output} (h : e.writeAll os = (e', none)) :
    e'.due = dueAfter e.due os := by
  induction os generalizing e with
  | nil =>
    obtain rfl : e = e' := congrArg Prod.fst h
    rfl
  | cons o os ih =>
    rw [writeAll] at h
    split at h
    · next hwrite => rw [ih h, (write_text hwrite).2, dueAfter]
    · simp at h

end Emitter

/-- Two stylesheets purged into one sink. -/
theorem purge_append {j : Judge} {source next : String} {sink sink' sink'' : Sink} {c c' : Counts}
    (h : EndsInBlock source) (hfirst : purge j source sink = ⟨sink', .ok c⟩)
    (hsecond : purge j next sink' = ⟨sink'', .ok c'⟩) :
    purge j (source ++ next) sink = ⟨sink'', .ok (c + c')⟩ := by
  obtain ⟨s, e, hs, hwrite, -, rfl, rfl⟩ := purge_ok_iff.1 hfirst
  obtain ⟨t, e', ht, hwrite', hflush, rfl, rfl⟩ := purge_ok_iff.1 hsecond
  obtain ⟨hplan, hdue⟩ := planOf_append h hs ht
  have he : e = (Emitter.ofSink e.sink).ahead e.written := by
    have hnone : e.due = false := (Emitter.due_writeAll hwrite).trans hdue
    rcases e with ⟨sink, due, written⟩
    subst hnone
    rfl
  refine purge_ok_iff.2 ⟨_, e'.ahead e.written, by rw [hplan], ?_, hflush, rfl, rfl⟩
  rw [hplan, Emitter.writeAll_append, hwrite]
  dsimp only
  rw [he, Emitter.writeAll_ahead, hwrite']
  rfl

/-- A purge does the same to a sink without a limit that holds some text before. -/
theorem purge_ok_after {j : Judge} {source text : String} {c : Counts}
    (h : purge j source .unlimited = ⟨{ Sink.unlimited with text := text }, .ok c⟩)
    (before : String) : purge j source { Sink.unlimited with text := before } =
      ⟨{ Sink.unlimited with text := before ++ text }, .ok c⟩ := by
  have hempty := purge_unlimited j source ""
  rw [String.empty_append] at hempty
  obtain ⟨hsink, hresult⟩ := Purged.mk.inj (hempty.symm.trans h)
  obtain rfl : textOf (planOf j source).outputs = text := congrArg Sink.text hsink
  rw [purge_unlimited]
  exact congrArg (Purged.mk _) hresult

/-- Purging and the search for references distribute over two stylesheets if the first ends with a
block: what is written and counted, and what is found, is that of the first and then that of the
second. -/
theorem purge_ofSheet_append {source next : String} (h : EndsInBlock source) :
    (∀ (j : Judge) (text text' : String) (c c' : Counts),
      purge j source .unlimited = ⟨{ Sink.unlimited with text := text }, .ok c⟩ →
        purge j next .unlimited = ⟨{ Sink.unlimited with text := text' }, .ok c'⟩ →
          purge j (source ++ next) .unlimited =
            ⟨{ Sink.unlimited with text := text ++ text' }, .ok (c + c')⟩) ∧
      (∀ (j : Judge) (sink sink' sink'' : Sink) (c c' : Counts),
        purge j source sink = ⟨sink', .ok c⟩ → purge j next sink' = ⟨sink'', .ok c'⟩ →
          purge j (source ++ next) sink = ⟨sink'', .ok (c + c')⟩) ∧
      ∀ r r' : References, References.ofSheet source = .ok r → References.ofSheet next = .ok r' →
        References.ofSheet (source ++ next) = .ok (r ++ r') := by
  refine ⟨fun j text text' c c' hfirst hsecond => ?_,
    fun j sink sink' sink'' c c' => purge_append h, fun r r' => ofSheet_append h⟩
  exact purge_append h hfirst (purge_ok_after hsecond text)

theorem purge_eq_of_toOption {p : Purged} {text : String} {c : Counts}
    (hsink : p.sink = { Sink.unlimited with text := text }) (hresult : p.result.toOption = some c) :
    p = ⟨{ Sink.unlimited with text := text }, .ok c⟩ := by
  rcases p with ⟨sink, result⟩
  rw [show sink = _ from hsink, show result = _ from ok_of_toOption hresult]

/-- A group that ends with a removed rule, and before a sheet whose last rule is not closed. -/
theorem purge_ofSheet_append_groups :
    let source := "@media print\x7b@keyframes k\x7bfrom\x7bx:y\x7d\x7da\x7bfont-family:F\x7d\x7d"
    let next := "b\x7banimation:k"
    let j : Judge := ⟨.markup [.ofTag "b"], ⟨[], [("k", [.ofTag "b"])]⟩⟩
    EndsInBlock source ∧
      purge j (source ++ next) .unlimited = ⟨{ Sink.unlimited with text :=
        "@media print\x7b@keyframes k\x7bfrom\x7bx:y\x7d\x7d\x7d" ++ "b\x7banimation:k\x7d" },
        .ok (⟨0, 1, 1, 0, 0, 53, 37⟩ + ⟨1, 0, 0, 0, 0, 13, 14⟩)⟩ ∧
      References.ofSheet (source ++ next) =
        .ok (⟨[("F", [.ofTag "a"])], []⟩ ++ ⟨[], [("k", [.ofTag "b"])]⟩) := by
  intro source next j
  have hends : EndsInBlock source := by decide +kernel
  obtain ⟨hpurge, -, hrefs⟩ := @purge_ofSheet_append source next hends
  refine ⟨hends, hpurge j _ _ _ _ ?_ ?_, hrefs _ _ ?_ ?_⟩
  · exact purge_eq_of_toOption (by decide +kernel) (by decide +kernel)
  · exact purge_eq_of_toOption (by decide +kernel) (by decide +kernel)
  · exact ok_of_toOption (by decide +kernel)
  · exact ok_of_toOption (by decide +kernel)

end StyleSieve.Purge
