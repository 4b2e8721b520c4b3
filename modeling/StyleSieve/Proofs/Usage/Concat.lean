import StyleSieve.Proofs.Css.Concat
import StyleSieve.Proofs.Usage.Survey

/-!
# References in stylesheets one after another

After the events of a stylesheet a survey holds nothing but what it has found, whatever is nested in
what. So the references in two stylesheets, one after another, are those of the first and then those
of the second, if the first ends with a block (`ofSheet_append`).
-/

namespace StyleSieve.Usage

open Css

namespace Survey

variable {s t : Survey} {e : Event} {es : List Event}

/-! ## Nothing but what is found -/

/-- No selector has been read and no name is in use. -/
structure Idle (s : Survey) : Prop where
  selectors : s.selectors = []
  fonts : s.fonts = []
  animations : s.animations = []

theorem idle_of_endRule (h : s.endRule = .ok t) : t.Idle := by
  unfold endRule at h
  dsimp only at h
  split at h
  · obtain rfl := Except.ok.inj h
    exact ⟨rfl, rfl, rfl⟩
  · split at h
    · contradiction
    · obtain rfl := Except.ok.inj h
      exact ⟨rfl, rfl, rfl⟩

/-- Where no selector has been read, a declaration is passed over. -/
theorem Idle.declare_eq (h : s.Idle) (e : Event) : s.declare e = s := by
  rw [declare, h.selectors]
  rfl

mutual

/-- A node leaves nothing behind but what is found. -/
theorem idle_events {ctx : Context} : ∀ {n : Node}, n.Fits ctx → ∀ {s t : Survey}, s.depth = 0 →
    s.Idle → s.run n.events = .ok t → t.Idle
  | .comment e, .comment kind, s, t, hdepth, h, hrun => by
    rw [Node.events_comment, run_singleton, step, if_neg (by omega), kind] at hrun
    exact Except.ok.inj hrun ▸ h
  | .declaration e, .declaration kind, s, t, hdepth, h, hrun => by
    rw [Node.events_declaration, run_singleton, step, if_neg (by omega)] at hrun
    rcases kind with kind | kind <;> rw [kind] at hrun
    · rw [← Except.ok.inj hrun, h.declare_eq]
      exact h
    · exact Except.ok.inj hrun ▸ h
  | .statement e, .statement kind, s, t, hdepth, h, hrun => by
    rw [Node.events_statement, run_singleton, step, if_neg (by omega), kind] at hrun
    exact Except.ok.inj hrun ▸ h
  | .ruleset earlier last body stop, .ruleset hearlier hlast hstop fits, s, t, hdepth, _, hrun => by
    have hafter := (run_events (.ruleset hearlier hlast hstop fits) hdepth hrun).2
    rw [Node.events_ruleset, ← List.cons_append, ← List.append_assoc, run_append_iff] at hrun
    obtain ⟨m, -, hend⟩ := hrun
    rw [run_singleton, step, hstop] at hend
    split at hend
    · next hdeep =>
      obtain rfl := Except.ok.inj hend
      omega
    · exact idle_of_endRule hend
  | .block head body stop, .block hhead hstop fits, s, t, hdepth, h, hrun => by
    rw [Node.events_block] at hrun
    by_cases hname : isKeyframes head.atName = true
    · rw [run_animation hdepth hhead hname hstop fits hrun]
      exact h
    · obtain ⟨m, hstart, hrest⟩ := run_cons_iff.1 hrun
      obtain ⟨m', hinside, hend⟩ := run_append_iff.1 hrest
      rw [step, if_neg (by omega), hhead] at hstart
      dsimp only at hstart
      rw [if_neg hname] at hstart
      obtain rfl := Except.ok.inj hstart
      rw [run_singleton, step, if_neg (by rw [(run_eventsIn fits hdepth hinside).2]; omega), hstop]
        at hend
      exact Except.ok.inj hend ▸ idle_eventsIn fits hdepth h hinside

theorem idle_eventsIn {ctx : Context} : ∀ {ns : List Node}, (∀ n ∈ ns, n.Fits ctx) →
    ∀ {s t : Survey}, s.depth = 0 → s.Idle → s.run (Node.eventsIn ns) = .ok t → t.Idle
  | [], _, s, t, _, h, hrun => by
    rw [Node.eventsIn_nil, run] at hrun
    exact Except.ok.inj hrun ▸ h
  | n :: ns, fits, s, t, hdepth, h, hrun => by
    rw [Node.eventsIn_cons] at hrun
    obtain ⟨m, hfirst, hrest⟩ := run_append_iff.1 hrun
    have hn := fits n List.mem_cons_self
    exact idle_eventsIn (fun m hm => fits m (List.mem_cons_of_mem n hm))
      (run_events hn hdepth hfirst).2 (idle_events hn hdepth h hfirst) hrest

end

/-! ## More found before -/

/-- A survey that has found more before. -/
def after (r : References) (s : Survey) : Survey := { s with found := r ++ s.found }

theorem endRule_after (r : References) (s : Survey) :
    (s.after r).endRule = s.endRule.map (after r) := by
  unfold endRule
  have hassoc : ∀ uses : References, r ++ s.found ++ uses = r ++ (s.found ++ uses) := fun uses => by
    simp [References.append_def]
  rw [after]
  dsimp only
  split
  · rfl
  · cases chainsOf s.selectors with
    | error fault => rfl
    | ok chains =>
      dsimp only
      rw [hassoc]
      rfl

theorem declare_after (r : References) (s : Survey) (e : Event) :
    (s.after r).declare e = (s.declare e).after r := by
  have hselectors : (s.after r).selectors = s.selectors := rfl
  rw [declare, declare, hselectors]
  split
  · rfl
  · split
    · rfl
    · split <;> rfl

theorem step_after (r : References) (s : Survey) (e : Event) :
    (s.after r).step e = (s.step e).map (after r) := by
  have hdepth : (s.after r).depth = s.depth := rfl
  rw [step, step, hdepth]
  split
  · cases e.kind <;> rfl
  · cases hkind : e.kind
    case rulesetEnd => exact endRule_after r s
    case declaration => exact congrArg Except.ok (declare_after r s e)
    case blockStart =>
      dsimp only
      split <;> rfl
    all_goals rfl

theorem run_after (r : References) (s : Survey) (es : List Event) :
    (s.after r).run es = (s.run es).map (after r) := by
  induction es generalizing s with
  | nil => rfl
  | cons e es ih =>
    rw [run, run, step_after]
    cases s.step e with
    | error fault => rfl
    | ok t => exact ih t

/-- Where an event stands does not matter. -/
theorem step_shift (n : Nat) (s : Survey) (e : Event) : s.step (e.shift n) = s.step e := rfl

theorem run_shift (n : Nat) (s : Survey) (es : List Event) :
    s.run (es.map (.shift n)) = s.run es := by
  induction es generalizing s with
  | nil => rfl
  | cons e es ih =>
    rw [List.map_cons, run, run, step_shift]
    cases s.step e with
    | error fault => rfl
    | ok t => exact ih t

end Survey

theorem ofSheet_ok_iff {source : String} {r : References} : References.ofSheet source = .ok r ↔
    (events source).error = none ∧ ∃ s, Survey.initial.run (events source).events = .ok s ∧
      s.found = r := by
  rw [References.ofSheet]
  cases Survey.initial.run (events source).events with
  | error fault => simp
  | ok s => cases (events source).error <;> simp

/-- The references in two stylesheets, one after another, if the first ends with a block. -/
theorem ofSheet_append {source next : String} {r r' : References} (h : EndsInBlock source)
    (hr : References.ofSheet source = .ok r) (hr' : References.ofSheet next = .ok r') :
    References.ofSheet (source ++ next) = .ok (r ++ r') := by
  obtain ⟨herror, s, hrun, rfl⟩ := ofSheet_ok_iff.1 hr
  obtain ⟨herror', t, hrun', rfl⟩ := ofSheet_ok_iff.1 hr'
  rw [ofSheet_ok_iff, h.events_append herror, Outcome.error_append_eq_none,
    Outcome.events_append herror]
  have hnodes := hrun
  rw [← outline_events herror] at hnodes
  have hfits := outline_fits herror
  have hdepth := (Survey.run_eventsIn hfits rfl hnodes).2
  have hidle := Survey.idle_eventsIn hfits (s := .initial) rfl ⟨rfl, rfl, rfl⟩ hnodes
  have hs : s = Survey.initial.after s.found := by
    obtain ⟨hselectors, hfonts, hanimations⟩ := hidle
    rcases s with ⟨selectors, fonts, animations, depth, found⟩
    subst hselectors hfonts hanimations hdepth
    simp [Survey.after, Survey.initial, References.append_def, References.empty]
  refine ⟨⟨herror, by rw [Outcome.shift, herror']; rfl⟩, t.after s.found,
    Survey.run_append_iff.2 ⟨s, hrun, ?_⟩, rfl⟩
  calc s.run ((events next).events.map (.shift (Text.width source.toList)))
    _ = s.run (events next).events := Survey.run_shift _ s _
    _ = (Survey.initial.after s.found).run (events next).events := congrArg (Survey.run · _) hs
    _ = (Survey.initial.run (events next).events).map (.after s.found) := Survey.run_after _ _ _
    _ = .ok (t.after s.found) := by rw [hrun']; rfl

end StyleSieve.Usage
