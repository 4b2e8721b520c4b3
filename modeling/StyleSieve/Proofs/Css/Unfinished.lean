import StyleSieve.Proofs.Css.Outline

/-!
# Events as far as they go

The events of any stylesheet are nested as far as they go, also if a fault of the grammar ends them:
an end is that of the innermost block, and a list of selectors goes on until its rule begins
(`exists_nesting`). Without a fault nothing is left open. The nodes that are read on the way are not
looked at here.
-/

namespace StyleSieve.Css

open Node

/-- The events can be read after what has been read, and unless there is a fault the end is as
said. -/
def Outcome.LeadsTo (p : Outcome) (n : Nesting) (ends : Nesting → Prop) : Prop :=
  ∃ n', p.events.foldlM Nesting.read n = some n' ∧ (p.error = none → ends n')

/-- The given blocks are open, and no list of selectors has begun. -/
structure Node.Nesting.Rests (frames : List Frame) (n : Nesting) : Prop where
  frames : n.frames = frames
  earlier : n.earlier = []

section

variable {p q : Outcome} {n n' : Nesting} {e : Event} {ends ends' : Nesting → Prop}
  {frames : List Frame}

namespace Outcome

theorem leadsTo_fail {fault : SyntaxFault} {offset : Nat} :
    (Outcome.fail fault offset).LeadsTo n ends :=
  ⟨n, rfl, fun h => by simp [fail] at h⟩

theorem leadsTo_empty (h : ends n) : Outcome.empty.LeadsTo n ends :=
  ⟨n, rfl, fun _ => h⟩

theorem leadsTo_one (hread : n.read e = some n') (h : ends n') :
    (Outcome.one e).LeadsTo n ends :=
  ⟨n', by simp [one, hread], fun _ => h⟩

theorem LeadsTo.append (hp : p.LeadsTo n ends) (hq : ∀ m, ends m → q.LeadsTo m ends') :
    (p ++ q).LeadsTo n ends' := by
  obtain ⟨m, hread, hends⟩ := hp
  cases herror : p.error with
  | some fault =>
    refine ⟨m, by simpa [append_def, herror] using hread, fun h => ?_⟩
    rw [(error_append_eq_none.1 h).1] at herror
    contradiction
  | none =>
    obtain ⟨n', hread', hends'⟩ := hq m (hends herror)
    refine ⟨n', ?_, fun h => hends' (error_append_eq_none.1 h).2⟩
    rw [events_append herror, List.foldlM_append, hread]
    exact hread'

theorem leadsTo_guarded {pos : Nat} {ts : List Tree} (h : p.LeadsTo n ends) :
    (guarded pos ts p).LeadsTo n ends := by
  unfold guarded
  split
  · exact leadsTo_fail
  · exact h

end Outcome

/-! ## One event more -/

namespace Node.Nesting

theorem Rests.add (h : n.Rests frames) (node : Node) :
    ∃ n', n.add node = some n' ∧ n'.Rests frames := by
  refine ⟨{ n with done := node :: n.done }, ?_, h.frames, h.earlier⟩
  rw [Nesting.add, h.earlier]
  rfl

/-- An event that begins or ends nothing. -/
theorem Rests.read_single (h : n.Rests frames) (hkind : e.kind = .comment ∨ e.kind = .declaration ∨
    e.kind = .customDeclaration ∨ e.kind = .statement) :
    ∃ n', n.read e = some n' ∧ n'.Rests frames := by
  unfold Nesting.read
  rcases hkind with hkind | hkind | hkind | hkind <;> rw [hkind]
  · exact h.add (.comment e)
  · exact h.add (.declaration e)
  · exact h.add (.declaration e)
  · exact h.add (.statement e)

theorem Rests.read_blockStart (h : n.Rests frames) (hkind : e.kind = .blockStart) :
    ∃ n', n.read e = some n' ∧ n'.Rests (⟨.block e, n.done⟩ :: frames) := by
  refine ⟨n.enter (.block e), ?_, by rw [enter, h.frames], rfl⟩
  unfold Nesting.read
  rw [hkind, h.earlier]
  rfl

theorem Rests.read_blockEnd {head : Event} {before : List Node}
    (h : n.Rests (⟨.block head, before⟩ :: frames)) (hkind : e.kind = .blockEnd) :
    ∃ n', n.read e = some n' ∧ n'.Rests frames := by
  refine ⟨⟨frames, [], .block head n.done.reverse e :: before⟩, ?_, rfl, rfl⟩
  unfold Nesting.read
  rw [hkind, h.frames, h.earlier]
  rfl

theorem read_rulesetStart (hframes : n.frames = frames) (hkind : e.kind = .rulesetStart) :
    ∃ n', n.read e = some n' ∧
      n'.Rests (⟨.ruleset n.earlier.reverse e, n.done⟩ :: frames) := by
  refine ⟨n.enter (.ruleset n.earlier.reverse e), ?_, by rw [enter, hframes], rfl⟩
  unfold Nesting.read
  rw [hkind]

theorem Rests.read_rulesetEnd {earlier : List Event} {last : Event} {before : List Node}
    (h : n.Rests (⟨.ruleset earlier last, before⟩ :: frames)) (hkind : e.kind = .rulesetEnd) :
    ∃ n', n.read e = some n' ∧ n'.Rests frames := by
  refine ⟨⟨frames, [], .ruleset earlier last n.done.reverse e :: before⟩, ?_, rfl, rfl⟩
  unfold Nesting.read
  rw [hkind, h.frames, h.earlier]
  rfl

end Node.Nesting

namespace Outcome

theorem leadsTo_single (h : n.Rests frames) (hkind : e.kind = .comment ∨ e.kind = .declaration ∨
    e.kind = .customDeclaration ∨ e.kind = .statement) :
    (Outcome.one e).LeadsTo n (Nesting.Rests frames) := by
  obtain ⟨n', hread, hrests⟩ := h.read_single hkind
  exact leadsTo_one hread hrests

/-- A block with what follows it. -/
theorem leadsTo_block {inside : Outcome} {head stop : Event} (h : n.Rests frames)
    (hhead : head.kind = .blockStart) (hstop : stop.kind = .blockEnd)
    (hinside : ∀ frames m, m.Rests frames → inside.LeadsTo m (Nesting.Rests frames))
    (hq : ∀ m, m.Rests frames → q.LeadsTo m (Nesting.Rests frames)) :
    (one head ++ inside ++ one stop ++ q).LeadsTo n (Nesting.Rests frames) := by
  obtain ⟨n', hread, hrests⟩ := h.read_blockStart hhead
  refine (((leadsTo_one hread hrests).append (hinside _)).append fun m hm => ?_).append hq
  obtain ⟨m', hread', hrests'⟩ := hm.read_blockEnd hstop
  exact leadsTo_one hread' hrests'

/-- The block of a rule with what follows it. A list of selectors may have begun before. -/
theorem leadsTo_ruleset {inside : Outcome} {last stop : Event} (hframes : n.frames = frames)
    (hlast : last.kind = .rulesetStart) (hstop : stop.kind = .rulesetEnd)
    (hinside : ∀ frames m, m.Rests frames → inside.LeadsTo m (Nesting.Rests frames))
    (hq : ∀ m, m.Rests frames → q.LeadsTo m (Nesting.Rests frames)) :
    (one last ++ inside ++ one stop ++ q).LeadsTo n (Nesting.Rests frames) := by
  obtain ⟨n', hread, hrests⟩ := Nesting.read_rulesetStart hframes hlast
  refine (((leadsTo_one hread hrests).append (hinside _)).append fun m hm => ?_).append hq
  obtain ⟨m', hread', hrests'⟩ := hm.read_rulesetEnd hstop
  exact leadsTo_one hread' hrests'

end Outcome

/-- What is read in a context can be read after what has been read, and leaves the open blocks as
they were unless there is a fault. Selectors may follow others of their list. -/
theorem Reading.leadsTo {ctx : Context} {pos : Nat} {ts : List Tree} (h : Reading ctx pos ts p) :
    ∀ frames n, n.frames = frames → (ctx ≠ .selectors → n.earlier = []) →
      p.LeadsTo n (Nesting.Rests frames) := by
  induction h with
  | nil inner =>
    intro frames n hframes hearlier
    exact Outcome.leadsTo_empty ⟨hframes, hearlier inner⟩
  | filler _ _ _ ih => exact ih
  | comment inner _ _ ih =>
    intro frames n hframes hearlier
    exact (Outcome.leadsTo_single ⟨hframes, hearlier inner⟩ (.inl rfl)).append fun m hm =>
      ih frames m hm.frames fun _ => hm.earlier
  | rule _ _ ih =>
    intro frames n hframes hearlier
    exact ih frames n hframes fun _ => hearlier (by simp)
  | @selector pos selector _ _ _ _ _ _ _ ih =>
    intro frames n hframes _
    -- A selector of a list leaves the list open.
    let e := selectorEvent .selector pos selector
    have hread : n.read e = some { n with earlier := e :: n.earlier } := rfl
    have hone : (Outcome.one e).LeadsTo n fun m => m.frames = frames :=
      Outcome.leadsTo_one hread hframes
    exact Outcome.leadsTo_guarded (hone.append fun m hm => ih frames m hm fun hne => absurd rfl hne)
  | ruleset _ _ _ _ _ ihInside ih =>
    intro frames n hframes _
    exact Outcome.leadsTo_guarded (Outcome.leadsTo_ruleset hframes rfl rfl
      (fun frames m hm => ihInside frames m hm.frames fun _ => hm.earlier)
      fun m hm => ih frames m hm.frames fun _ => hm.earlier)
  | lastStatement inner =>
    intro frames n hframes hearlier
    have hrests : n.Rests frames := ⟨hframes, hearlier inner⟩
    exact Outcome.leadsTo_guarded (Outcome.leadsTo_single hrests (.inr (.inr (.inr rfl))))
  | statement inner _ _ _ _ ih =>
    intro frames n hframes hearlier
    have hrests : n.Rests frames := ⟨hframes, hearlier inner⟩
    exact Outcome.leadsTo_guarded
      ((Outcome.leadsTo_single hrests (.inr (.inr (.inr rfl)))).append fun m hm =>
        ih frames m hm.frames fun _ => hm.earlier)
  | block inner _ _ _ _ _ ihInside ih =>
    intro frames n hframes hearlier
    exact Outcome.leadsTo_guarded (Outcome.leadsTo_block ⟨hframes, hearlier inner⟩ rfl rfl
      (fun frames m hm => ihInside frames m hm.frames fun _ => hm.earlier)
      fun m hm => ih frames m hm.frames fun _ => hm.earlier)
  | declaration _ _ _ _ _ _ ih =>
    intro frames n hframes hearlier
    have hrests : n.Rests frames := ⟨hframes, hearlier (by simp)⟩
    refine Outcome.leadsTo_guarded ((Outcome.leadsTo_single hrests ?_).append fun m hm =>
      ih frames m hm.frames fun _ => hm.earlier)
    exact (declarationEvent_kind _ _ _).elim (fun h => .inr (.inl h)) fun h => .inr (.inr (.inl h))
  | endInSelector | emptySelector | inSelector =>
    intro frames n _ _
    exact Outcome.leadsTo_guarded Outcome.leadsTo_fail
  | missingColon | inRules | inDeclarations =>
    intro frames n _ _
    exact Outcome.leadsTo_fail

/-! ## What a reading does -/

namespace Node

/-- The event that begins the block. -/
def Opened.head : Opened → Event
  | ruleset _ last => last
  | block head => head

def Opened.kind : Opened → EventKind
  | ruleset .. => .rulesetStart
  | block _ => .blockStart

theorem Opened.kind_eq (o : Opened) : o.kind = .rulesetStart ∨ o.kind = .blockStart := by
  cases o
  · exact .inl rfl
  · exact .inr rfl

end Node

/-- What an end is the end of. -/
def EventKind.begun : EventKind → Option EventKind
  | rulesetEnd => some rulesetStart
  | blockEnd => some blockStart
  | _ => none

/-- What one event more can do. -/
inductive Node.Nesting.Reading (n : Nesting) (e : Event) (n' : Nesting) : Prop
  | begins {f : Frame} (kind : e.kind = f.opened.kind) (head : f.opened.head = e)
      (before : e.kind = .blockStart → n.earlier = []) (frames : n'.frames = f :: n.frames)
      (earlier : n'.earlier = [])
  | ends {f : Frame} (kind : e.kind.begun = some f.opened.kind) (before : n.earlier = [])
      (frames : n.frames = f :: n'.frames) (earlier : n'.earlier = [])
  | selector (kind : e.kind = .selector) (frames : n'.frames = n.frames)
      (earlier : n'.earlier = e :: n.earlier)
  | single (kind : e.kind = .comment ∨ e.kind = .declaration ∨ e.kind = .customDeclaration ∨
        e.kind = .statement) (before : n.earlier = []) (frames : n'.frames = n.frames)
      (earlier : n'.earlier = [])

theorem reading_of_read (h : n.read e = some n') : n.Reading e n' := by
  have hadd : ∀ node, n.add node = some n' →
      n.earlier = [] ∧ n'.frames = n.frames ∧ n'.earlier = [] := by
    intro node hadd
    unfold Nesting.add at hadd
    split at hadd
    · next hempty =>
      obtain rfl := Option.some.inj hadd
      exact ⟨List.isEmpty_iff.1 hempty, rfl, List.isEmpty_iff.1 hempty⟩
    · contradiction
  unfold Nesting.read at h
  cases hkind : e.kind <;> simp only [hkind] at h
  case comment =>
    obtain ⟨hbefore, hframes, hearlier⟩ := hadd _ h
    exact .single (.inl hkind) hbefore hframes hearlier
  case declaration =>
    obtain ⟨hbefore, hframes, hearlier⟩ := hadd _ h
    exact .single (.inr (.inl hkind)) hbefore hframes hearlier
  case customDeclaration =>
    obtain ⟨hbefore, hframes, hearlier⟩ := hadd _ h
    exact .single (.inr (.inr (.inl hkind))) hbefore hframes hearlier
  case statement =>
    obtain ⟨hbefore, hframes, hearlier⟩ := hadd _ h
    exact .single (.inr (.inr (.inr hkind))) hbefore hframes hearlier
  case selector =>
    obtain rfl := Option.some.inj h
    exact .selector hkind rfl rfl
  case rulesetStart =>
    obtain rfl := Option.some.inj h
    exact .begins (f := ⟨.ruleset n.earlier.reverse e, n.done⟩) hkind rfl
      (fun hblock => by simp [hkind] at hblock) rfl rfl
  case blockStart =>
    split at h
    · next hempty =>
      obtain rfl := Option.some.inj h
      exact .begins (f := ⟨.block e, n.done⟩) hkind rfl (fun _ => List.isEmpty_iff.1 hempty) rfl
        rfl
    · contradiction
  case rulesetEnd =>
    split at h
    · next hframes =>
      split at h
      · next hempty =>
        obtain rfl := Option.some.inj h
        exact .ends (by rw [hkind]; rfl) (List.isEmpty_iff.1 hempty) hframes rfl
      · contradiction
    · contradiction
  case blockEnd =>
    split at h
    · next hframes =>
      split at h
      · next hempty =>
        obtain rfl := Option.some.inj h
        exact .ends (by rw [hkind]; rfl) (List.isEmpty_iff.1 hempty) hframes rfl
      · contradiction
    · contradiction

/-- A list of selectors has begun only if the last event is one of its selectors. -/
theorem exists_selector_of_earlier {es : List Event}
    (h : es.foldlM Nesting.read Nesting.start = some n) (hearlier : n.earlier ≠ []) :
    ∃ before e, es = before ++ [e] ∧ e.kind = .selector := by
  rcases List.eq_nil_or_concat es with rfl | ⟨before, e, rfl⟩
  · obtain rfl := Option.some.inj h
    exact absurd rfl hearlier
  · rw [List.concat_eq_append] at h ⊢
    refine ⟨before, e, rfl, ?_⟩
    rw [List.foldlM_append] at h
    obtain ⟨m, -, hlast⟩ := Option.bind_eq_some_iff.1 h
    have hread : m.read e = some n := by simpa using hlast
    cases reading_of_read hread with
    | begins _ _ _ _ hnil => exact absurd hnil hearlier
    | ends _ _ _ hnil => exact absurd hnil hearlier
    | selector kind _ _ => exact kind
    | single _ _ _ hnil => exact absurd hnil hearlier

/-- A list of selectors goes on with a selector. -/
theorem kind_of_earlier (hread : n.read e = some n') (hearlier : n.earlier ≠ []) :
    e.kind = .selector ∨ e.kind = .rulesetStart := by
  cases reading_of_read hread with
  | @begins f kind _ before _ _ =>
    cases hopened : f.opened with
    | ruleset => exact .inr (by rw [kind, hopened]; rfl)
    | block => exact absurd (before (by rw [kind, hopened]; rfl)) hearlier
  | ends _ before _ _ => exact absurd before hearlier
  | selector kind _ _ => exact .inl kind
  | single _ before _ _ => exact absurd before hearlier

/-! ## The events of a stylesheet -/

/-- The events of any stylesheet can be read in order. Nothing is left open unless there is a
fault. -/
theorem exists_nesting (source : String) :
    (events source).LeadsTo Nesting.start (Nesting.Rests []) :=
  (reading_eventsOf .rules 0 (Tree.ofText source.toList)).leadsTo [] Nesting.start rfl fun _ => rfl

/-- Some of the events are read, and then the others. -/
theorem exists_nesting_between {source : String} {es rest : List Event}
    (h : (events source).events = es ++ rest) :
    ∃ n n', es.foldlM Nesting.read Nesting.start = some n ∧
      rest.foldlM Nesting.read n = some n' ∧ ((events source).error = none → n'.Rests []) := by
  obtain ⟨n', hread, hrests⟩ := exists_nesting source
  rw [h, List.foldlM_append] at hread
  obtain ⟨n, hfirst, hrest⟩ := Option.bind_eq_some_iff.1 hread
  exact ⟨n, n', hfirst, hrest, hrests⟩

end

end StyleSieve.Css
