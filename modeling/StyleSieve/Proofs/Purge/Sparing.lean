import StyleSieve.Proofs.Purge.Pruning

/-!
# Stylesheets of which nothing is removed

A purge over nodes that are spared runs to its end and removes nothing (`exists_run_of_sparesIn`).
No at-rule may stand inside the definition of a font. Comments and groups that hold nothing are not
counted, so a spared stylesheet may still lose them.
-/

namespace StyleSieve.Purge

open Css
open Text (sameAscii)
open Usage (fontName)

/-! ## Spared nodes -/

mutual

/-- No selector, rule, font or animation is removed with the node. -/
def spares (j : Judge) : Node → Bool
  | .ruleset earlier last body _ => (earlier ++ [last]).all j.keeps && sparesIn j body
  | .block head body _ =>
    if isKeyframes head.atName then j.wantsAnimation head
    else (!isFontFace head.atName || j.wantsFont (familyOf body)) && sparesIn j body
  | _ => true

def sparesIn (j : Judge) : List Node → Bool
  | [] => true
  | n :: ns => spares j n && sparesIn j ns

end

theorem sparesIn_append (j : Judge) (ns ns' : List Node) :
    sparesIn j (ns ++ ns') = (sparesIn j ns && sparesIn j ns') := by
  induction ns with
  | nil => rw [List.nil_append, sparesIn, Bool.true_and]
  | cons n ns ih => rw [List.cons_append, sparesIn, sparesIn, ih, Bool.and_assoc]

/-- The counters of what was removed: selectors, rules, fonts and animations. -/
def Counts.removed (c : Counts) : Nat × Nat × Nat × Nat :=
  (c.selectorsRemoved, c.rulesetsRemoved, c.fontFacesRemoved, c.keyframesRemoved)

/-! ## States between nodes -/

def Block.isFontFace : Block → Bool
  | fontFace => true
  | _ => false

/-- A state that keeps, outside the definition of a font. -/
structure Calm (s : State) : Prop where
  mode : s.mode = .keeping
  fontFace : s.fontFace = none

/-- A later state of which nothing was removed. The same blocks are open, though some that were
pending may have been written. -/
structure Spared (s t : State) : Prop extends Calm t where
  blocks : t.blocks.map Block.isFontFace = s.blocks.map Block.isFontFace
  removed : t.counts.removed = s.counts.removed

section

variable {j : Judge} {source : String} {s m t : State} {e head stop last : Event}
  {es es' earlier : List Event} {os : List Output} {body : List Node}

theorem map_isFontFace_openPending (bs : List Block) :
    (openPending bs).1.map Block.isFontFace = bs.map Block.isFontFace := by
  induction bs with
  | nil => rfl
  | cons b bs ih => cases b <;> simp [openPending, Block.isFontFace, ih]

theorem Spared.trans (h : Spared s m) (h' : Spared m t) : Spared s t where
  mode := h'.mode
  fontFace := h'.fontFace
  blocks := h'.blocks.trans h.blocks
  removed := h'.removed.trans h.removed

theorem Calm.refl (h : Calm s) : Spared s s := ⟨h, rfl, rfl⟩

theorem Calm.put (h : Calm s) (os : List Output) : s.put os = (s, os) := by
  simp [State.put, h.fontFace]

theorem Calm.putInside (h : Calm s) (os : List Output) : Spared s (s.putInside os).1 := by
  simp only [State.putInside, State.openAll, State.put, h.fontFace]
  exact ⟨⟨h.mode, rfl⟩, map_isFontFace_openPending s.blocks, rfl⟩

/-- The events are read to their end and nothing is removed. -/
def Passes (j : Judge) (source : String) (s : State) (es : List Event) : Prop :=
  ∃ os t, Runs j source s es os t ∧ Spared s t

theorem passes_nil (h : Calm s) : Passes j source s [] := ⟨[], s, .nil s, h.refl⟩

theorem passes_append (h : Passes j source s es) (h' : ∀ t, Calm t → Passes j source t es') :
    Passes j source s (es ++ es') := by
  obtain ⟨here, m, hruns, hspared⟩ := h
  obtain ⟨later, t, hruns', hspared'⟩ := h' m hspared.toCalm
  exact ⟨here ++ later, t, runs_append_iff.2 ⟨m, here, later, hruns, hruns', rfl⟩,
    hspared.trans hspared'⟩

theorem passes_singleton (hmode : s.mode = .keeping) (hstep : s.kept j e = .ok (t, os))
    (hspared : Spared s t) : Passes j source s [e] :=
  ⟨os, t, runs_singleton_iff.2 (by rw [step_keeping hmode, hstep]), hspared⟩

theorem passes_comment (h : Calm s) (hkind : e.kind = .comment) : Passes j source s [e] := by
  have hstep : s.kept j e = .ok (s.comment e) := by rw [State.kept, hkind]
  rw [State.comment, h.put] at hstep
  split at hstep
  · exact passes_singleton h.mode hstep h.refl
  · exact passes_singleton h.mode hstep h.refl

theorem passes_declaration (h : Calm s)
    (hkind : e.kind = .declaration ∨ e.kind = .customDeclaration) : Passes j source s [e] := by
  have hstep : s.kept j e = .ok (s.declaration e) := by
    rcases hkind with hkind | hkind <;> rw [State.kept, hkind]
  refine passes_singleton (t := (s.declaration e).1) h.mode hstep ?_
  simp only [State.declaration, h.fontFace, Option.map_none, State.put]
  exact ⟨⟨h.mode, rfl⟩, rfl, rfl⟩

theorem passes_statement (h : Calm s) (hkind : e.kind = .statement) : Passes j source s [e] := by
  have hstep : s.kept j e = .ok (s.putInside [.text e.prelude, .text ";"]) := by
    rw [State.kept, hkind]
  exact passes_singleton h.mode hstep (h.putInside _)

/-! ## Rules -/

/-- A kept selector is written and counted as kept. -/
theorem selector_of_keeps (h : Calm s) (hkeeps : j.keeps e = true) :
    ∃ t os, s.selector j e = .ok (t, os) ∧ Spared s t ∧ t.retained = true := by
  rw [Judge.keeps] at hkeeps
  rw [State.selector]
  split at hkeeps
  · next chain hchain =>
    rw [hchain]
    dsimp only
    rw [if_pos hkeeps]
    refine ⟨_, _, rfl, ?_, ?_⟩
    · have hcalm : Calm { s with
          retained := true
          counts := { s.counts with selectorsKept := s.counts.selectorsKept + 1 } } :=
        ⟨h.mode, h.fontFace⟩
      have hput := hcalm.putInside ((if s.retained then [.text ","] else []) ++ [.text e.text])
      exact ⟨hput.toCalm, hput.blocks, hput.removed⟩
    · simp [h.fontFace]
  · exact absurd hkeeps Bool.false_ne_true

theorem passes_selectors (h : Calm s)
    (hearlier : ∀ e ∈ earlier, e.kind = .selector ∧ j.keeps e = true) :
    Passes j source s earlier := by
  induction earlier generalizing s with
  | nil => exact passes_nil h
  | cons e earlier ih =>
    obtain ⟨hkind, hkeeps⟩ := hearlier e List.mem_cons_self
    obtain ⟨t, os, hselector, hspared, -⟩ := selector_of_keeps h hkeeps
    have hstep : s.kept j e = .ok (t, os) := by rw [State.kept, hkind, hselector]
    have hfirst : Passes j source s [e] := passes_singleton h.mode hstep hspared
    exact passes_append hfirst fun m hm =>
      ih hm fun x hx => hearlier x (List.mem_cons_of_mem e hx)

theorem passes_rulesetStart (h : Calm s) (hkind : e.kind = .rulesetStart)
    (hkeeps : j.keeps e = true) : Passes j source s [e] := by
  obtain ⟨t, os, hselector, hspared, hretained⟩ := selector_of_keeps h hkeeps
  have hcalm : Calm { t with retained := false } := ⟨hspared.mode, hspared.fontFace⟩
  have hstep : s.kept j e = .ok ({ t with retained := false }, os ++ [.text "\x7b"]) := by
    rw [State.kept, hkind]
    simp only [State.rulesetStart, hselector, hretained, if_true, hcalm.put]
  exact passes_singleton h.mode hstep ⟨hcalm, hspared.blocks, hspared.removed⟩

theorem passes_rulesetEnd (h : Calm s) (hkind : e.kind = .rulesetEnd) :
    Passes j source s [e] := by
  have hstep : s.kept j e = .ok (s.put [.close]) := by rw [State.kept, hkind]
  rw [h.put] at hstep
  exact passes_singleton h.mode hstep h.refl

/-! ## Blocks of at-rules -/

/-- A block of an at-rule that is not held back ends. -/
theorem exists_blockEnd (h : Calm s) (hkind : e.kind = .blockEnd) {b : Block} {bs : List Block}
    (hblocks : s.blocks = b :: bs) (hb : b.isFontFace = false) :
    ∃ os, s.kept j e = .ok ({ s with blocks := bs }, os) := by
  have hcalm : Calm { s with blocks := bs } := ⟨h.mode, h.fontFace⟩
  rw [State.kept, hkind]
  simp only [State.blockEnd, hblocks, List.head?_cons, List.drop_succ_cons, List.drop_zero]
  cases b with
  | pending prelude => exact ⟨_, rfl⟩
  | opened => exact ⟨_, by rw [hcalm.put]⟩
  | fontFace => exact absurd hb (by simp [Block.isFontFace])

theorem passes_wrapped (hmode : s.mode = .keeping) (hstart : s.kept j head = .ok (m, os))
    (hblocks : m.blocks.map Block.isFontFace = false :: s.blocks.map Block.isFontFace)
    (hremoved : m.counts.removed = s.counts.removed) (hbody : Passes j source m es)
    (hkind : stop.kind = .blockEnd) : Passes j source s (head :: (es ++ [stop])) := by
  obtain ⟨inside, t, hruns, hspared⟩ := hbody
  have hshape := hspared.blocks.trans hblocks
  obtain ⟨b, bs, hcons, hb, hbs⟩ := List.map_eq_cons_iff.1 hshape
  obtain ⟨last, hend⟩ := exists_blockEnd (j := j) hspared.toCalm hkind hcons hb
  refine ⟨os ++ (inside ++ last), { t with blocks := bs }, ?_, ?_⟩
  · refine .cons (by rw [step_keeping hmode, hstart]) (runs_append_iff.2 ⟨t, inside, last, hruns, ?_, rfl⟩)
    exact runs_singleton_iff.2 (by rw [step_keeping hspared.mode, hend])
  · exact ⟨⟨hspared.mode, hspared.fontFace⟩, hbs, hspared.removed.trans hremoved⟩

theorem passes_conditional (h : Calm s) (hhead : head.kind = .blockStart)
    (hstop : stop.kind = .blockEnd) (hkeyframes : isKeyframes head.atName = false)
    (hname : isConditional head.atName = true)
    (hbody : ∀ s, Calm s → Passes j source s es) :
    Passes j source s (head :: (es ++ [stop])) := by
  have hstart : s.kept j head =
      .ok ({ s with blocks := .pending head.prelude :: s.blocks }, []) := by
    rw [State.kept, hhead]
    simp [State.blockStart, hkeyframes, hname]
  exact passes_wrapped h.mode hstart rfl rfl (hbody _ ⟨h.mode, h.fontFace⟩) hstop

theorem passes_other (h : Calm s) (hhead : head.kind = .blockStart)
    (hstop : stop.kind = .blockEnd) (hkeyframes : isKeyframes head.atName = false)
    (hconditional : isConditional head.atName = false) (hname : isFontFace head.atName = false)
    (hbody : ∀ s, Calm s → Passes j source s es) :
    Passes j source s (head :: (es ++ [stop])) := by
  have hput := h.putInside [.text head.prelude, .text "\x7b"]
  generalize hinside : s.putInside [.text head.prelude, .text "\x7b"] = inside at hput
  obtain ⟨m, os⟩ := inside
  have hstart : s.kept j head = .ok ({ m with blocks := .opened :: m.blocks }, os) := by
    rw [State.kept, hhead]
    simp [State.blockStart, hkeyframes, hconditional, hname, hinside]
  refine passes_wrapped h.mode hstart ?_ hput.removed (hbody _ ⟨hput.mode, hput.fontFace⟩) hstop
  rw [List.map_cons, hput.blocks]
  rfl

theorem passes_keyframes {ctx : Context} (h : Calm s) (hhead : head.kind = .blockStart)
    (hstop : stop.kind = .blockEnd) (hname : isKeyframes head.atName = true)
    (hwants : j.wantsAnimation head = true) (hbody : ∀ n ∈ body, n.Fits ctx) :
    Passes j source s (head :: (Node.eventsIn body ++ [stop])) := by
  have hstart : s.kept j head = .ok ({ s with mode := .keyframes true head.span.start 1 }, []) := by
    rw [Judge.wantsAnimation] at hwants
    rw [State.kept, hhead]
    simp [State.blockStart, hname, hwants]
  have hcounted := (counting_keyframes j source s true head.span.start).runs_eventsIn hbody 0
  have hcalm : Calm { s with mode := .keeping } := ⟨rfl, h.fontFace⟩
  have hput := hcalm.putInside [.text (Text.slice source head.span.start stop.span.stop)]
  generalize hinside : State.putInside _ _ = inside at hput
  obtain ⟨t, os⟩ := inside
  have hend : ({ s with mode := .keyframes true head.span.start 1 } : State).step j source stop =
      .ok (t, os) := by
    simp [State.step, State.inKeyframes, hstop, hinside]
  refine ⟨[] ++ ([] ++ os), t, ?_, ⟨hput.toCalm, hput.blocks, hput.removed⟩⟩
  refine .cons (by rw [step_keeping h.mode, hstart]) ?_
  exact runs_append_iff.2 ⟨_, [], os, hcounted, runs_singleton_iff.2 hend, rfl⟩

/-! ## Fonts -/

theorem runs_held (hmode : s.mode = .keeping) {n : Node} (hfits : n.Fits .declarations)
    (hplain : n.isAtRule = false) {face : FontFace} (hface : s.fontFace = some face) :
    ∃ outputs, Runs j source s n.events [] { s with
      fontFace := some ⟨outputs, (familyOf? n).getD face.family⟩ } := by
  cases hfits with
  | @comment _ e kind =>
    rw [Node.events_comment, familyOf?]
    have hstep : s.kept j e = .ok (s.comment e) := by rw [State.kept, kind]
    rw [State.comment] at hstep
    split at hstep
    · rw [State.put, hface] at hstep
      exact ⟨_, runs_singleton_iff.2 (by rw [step_keeping hmode, hstep]; rfl)⟩
    · have hsame : { s with fontFace := some face } = s := by rw [← hface]
      exact ⟨face.outputs, runs_singleton_iff.2 (by rw [step_keeping hmode, hstep]; rw [← hsame]; rfl)⟩
    all_goals simp
  | @declaration e kind =>
    have hstep : s.kept j e = .ok (s.declaration e) := by
      rcases kind with kind | kind <;> rw [State.kept, kind]
    rw [Node.events_declaration, familyOf?]
    rw [State.declaration, State.put, hface] at hstep
    dsimp only [Option.map_some] at hstep
    refine ⟨.declaration e.data e.values :: face.outputs, runs_singleton_iff.2 ?_⟩
    rw [step_keeping hmode, hstep]
    split <;> rfl
  | statement kind => simp [Node.isAtRule] at hplain
  | block hhead hstop fits => simp [Node.isAtRule] at hplain

/-- The definition of a font is held back and tells its last family. -/
theorem runsIn_held (hmode : s.mode = .keeping)
    (hbody : ∀ n ∈ body, n.Fits .declarations ∧ n.isAtRule = false) {face : FontFace}
    (hface : s.fontFace = some face) :
    ∃ outputs, Runs j source s (Node.eventsIn body) [] { s with
      fontFace := some ⟨outputs, ((body.filterMap familyOf?).getLast?).getD face.family⟩ } := by
  induction body generalizing s face with
  | nil =>
    have hsame : { s with fontFace := some face } = s := by rw [← hface]
    refine ⟨face.outputs, ?_⟩
    rw [Node.eventsIn_nil, runs_nil_iff]
    exact ⟨hsame, rfl⟩
  | cons n body ih =>
    obtain ⟨hfits, hplain⟩ := hbody n List.mem_cons_self
    obtain ⟨outputs, hfirst⟩ := @runs_held j source s hmode n hfits hplain face hface
    obtain ⟨outputs', hrest⟩ := @ih
      { s with fontFace := some ⟨outputs, (familyOf? n).getD face.family⟩ } hmode
      (fun x hx => hbody x (List.mem_cons_of_mem n hx)) _ rfl
    have hfamily : (((n :: body).filterMap familyOf?).getLast?).getD face.family =
        ((body.filterMap familyOf?).getLast?).getD ((familyOf? n).getD face.family) := by
      cases hn : familyOf? n <;> simp [hn, List.getLast?_cons]
    rw [hfamily, Node.eventsIn_cons]
    exact ⟨outputs', runs_append_iff.2 ⟨_, [], [], hfirst, hrest, rfl⟩⟩

theorem passes_fontFace (h : Calm s) (hhead : head.kind = .blockStart)
    (hstop : stop.kind = .blockEnd) (hkeyframes : isKeyframes head.atName = false)
    (hconditional : isConditional head.atName = false) (hname : isFontFace head.atName = true)
    (hwants : j.wantsFont (familyOf body) = true)
    (hbody : ∀ n ∈ body, n.Fits .declarations ∧ n.isAtRule = false) :
    Passes j source s (head :: (Node.eventsIn body ++ [stop])) := by
  have hstart : s.kept j head = .ok ({ s with
      fontFace := some ⟨[.text "\x7b", .text head.prelude], ""⟩
      blocks := .fontFace :: s.blocks }, []) := by
    rw [State.kept, hhead]
    simp [State.blockStart, hkeyframes, hconditional, hname, h.fontFace]
  obtain ⟨outputs, hruns⟩ := @runsIn_held j source { s with
      fontFace := some ⟨[.text "\x7b", .text head.prelude], ""⟩
      blocks := .fontFace :: s.blocks } body h.mode hbody _ rfl
  have hcalm : Calm { s with fontFace := none } := ⟨h.mode, rfl⟩
  have hput := hcalm.putInside [.text (textOf (outputs.reverse ++ [.close]))]
  generalize hinside : State.putInside _ _ = inside at hput
  obtain ⟨t, os⟩ := inside
  refine ⟨[] ++ ([] ++ os), t, ?_, ⟨hput.toCalm, hput.blocks, hput.removed⟩⟩
  refine .cons (by rw [step_keeping h.mode, hstart]) ?_
  refine runs_append_iff.2 ⟨_, [], os, hruns, runs_singleton_iff.2 ?_, rfl⟩
  have hwants' : j.references.fontWanted j.index
      (((body.filterMap familyOf?).getLast?).getD "") = true := hwants
  rw [step_keeping (by exact h.mode), State.kept, hstop]
  simp only [State.blockEnd, List.head?_cons, List.drop_succ_cons, List.drop_zero,
    State.fontFaceEnd, hwants', if_true, hinside]

mutual

/-- A spared node is read to its end, and nothing is removed. -/
theorem passes_events (j : Judge) (source : String) : ∀ (n : Node) (ctx : Context), n.Fits ctx →
    FontsArePlain [n] → spares j n = true → ∀ s, Calm s → Passes j source s n.events
  | .comment e => by
    intro ctx hfits _ _ s h
    rw [Node.events_comment]
    cases hfits with
    | comment kind => exact passes_comment h kind
  | .declaration e => by
    intro ctx hfits _ _ s h
    rw [Node.events_declaration]
    cases hfits with
    | declaration kind => exact passes_declaration h kind
  | .statement e => by
    intro ctx hfits _ _ s h
    rw [Node.events_statement]
    cases hfits with
    | statement kind => exact passes_statement h kind
  | .ruleset earlier last body stop => by
    intro ctx hfits hplain hspares s h
    rw [spares, Bool.and_eq_true, List.all_append, Bool.and_eq_true] at hspares
    obtain ⟨⟨hearlier, hlast⟩, hbody⟩ := hspares
    cases hfits with
    | ruleset earlier_kind last_kind stop_kind fits =>
      have hselectors : ∀ e ∈ earlier, e.kind = .selector ∧ j.keeps e = true := fun e he =>
        ⟨earlier_kind e he, List.all_eq_true.1 hearlier e he⟩
      rw [Node.events_ruleset, ← List.singleton_append]
      refine passes_append (passes_selectors h hselectors) fun m hm => ?_
      refine passes_append (passes_rulesetStart hm last_kind (by simpa using hlast)) fun t ht => ?_
      refine passes_append (passes_eventsIn j source body _ fits hplain.body hbody t ht) ?_
      exact fun u hu => passes_rulesetEnd hu stop_kind
  | .block head body stop => by
    intro ctx hfits hplain hspares s h
    rw [spares] at hspares
    rw [Node.events_block]
    cases hfits with
    | block head_kind stop_kind fits =>
      cases hkeyframes : isKeyframes head.atName with
      | true =>
        rw [if_pos hkeyframes] at hspares
        exact passes_keyframes h head_kind stop_kind hkeyframes hspares fits
      | false =>
        rw [hkeyframes, if_neg Bool.false_ne_true, Bool.and_eq_true] at hspares
        have hbody := passes_eventsIn j source body _ fits hplain.body hspares.2
        cases hconditional : isConditional head.atName with
        | true => exact passes_conditional h head_kind stop_kind hkeyframes hconditional hbody
        | false =>
          cases hname : isFontFace head.atName with
          | false => exact passes_other h head_kind stop_kind hkeyframes hconditional hname hbody
          | true =>
            rw [hname, Bool.not_true, Bool.false_or] at hspares
            refine passes_fontFace h head_kind stop_kind hkeyframes hconditional hname hspares.1 ?_
            intro n hn
            refine ⟨ofAtRule_of_isFontFace hname ▸ fits n hn, ?_⟩
            exact hplain (.block head body stop) (Node.mem_nodesIn_self List.mem_cons_self) hname n
              (Node.mem_nodesIn_self hn)

/-- Spared nodes are read to their end, and nothing is removed. -/
theorem passes_eventsIn (j : Judge) (source : String) : ∀ (ns : List Node) (ctx : Context),
    (∀ n ∈ ns, n.Fits ctx) → FontsArePlain ns → sparesIn j ns = true →
      ∀ s, Calm s → Passes j source s (Node.eventsIn ns)
  | [] => by
    intro ctx _ _ _ s h
    rw [Node.eventsIn_nil]
    exact passes_nil h
  | n :: ns => by
    intro ctx hfits hplain hspares s h
    rw [sparesIn, Bool.and_eq_true] at hspares
    rw [Node.eventsIn_cons]
    refine passes_append ?_ (passes_eventsIn j source ns ctx
      (fun m hm => hfits m (List.mem_cons_of_mem n hm)) hplain.tail hspares.2)
    exact passes_events j source n ctx (hfits n List.mem_cons_self) hplain.head hspares.1 s h

end

end

end StyleSieve.Purge
