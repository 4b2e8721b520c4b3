import StyleSieve.Proofs.Css.Outline
import StyleSieve.Usage.References

/-!
# What a survey records

The references of a stylesheet, read off its outline. Outside the definitions of animations the
events fall into stretches, each up to the end of a rule; what a stretch names is recorded with the
chains of its selectors (`ofSheet_eq`). A rule inside another one ends the stretch of the outer
rule, so what the outer rule declares after it is lost.
-/

namespace StyleSieve.Usage

open Css Selector

/-! ## Events that count -/

mutual

/-- The events of a node outside the definitions of animations. -/
def surveyed : Node → List Event
  | .comment e => [e]
  | .declaration e => [e]
  | .statement e => [e]
  | .ruleset earlier last body stop => earlier ++ last :: (surveyedIn body ++ [stop])
  | .block head body stop =>
    if isKeyframes head.atName then [] else head :: (surveyedIn body ++ [stop])

def surveyedIn : List Node → List Event
  | [] => []
  | n :: ns => surveyed n ++ surveyedIn ns

end

theorem surveyedIn_append (ns ns' : List Node) :
    surveyedIn (ns ++ ns') = surveyedIn ns ++ surveyedIn ns' := by
  induction ns with
  | nil => rw [surveyedIn, List.nil_append, List.nil_append]
  | cons n ns ih => rw [List.cons_append, surveyedIn, surveyedIn, ih, List.append_assoc]

namespace Survey

variable {s t : Survey} {e : Event} {es es' : List Event}

theorem run_append_iff : s.run (es ++ es') = .ok t ↔ ∃ m, s.run es = .ok m ∧ m.run es' = .ok t := by
  induction es generalizing s with
  | nil => simp [run]
  | cons e es ih =>
    rw [List.cons_append, run, run]
    cases s.step e with
    | error fault => simp
    | ok m => exact ih

theorem run_singleton (s : Survey) (e : Event) : s.run [e] = s.step e := by
  rw [run]
  cases s.step e <;> rfl

theorem run_cons_iff : s.run (e :: es) = .ok t ↔ ∃ m, s.step e = .ok m ∧ m.run es = .ok t := by
  rw [← List.singleton_append, run_append_iff, run_singleton]

/-- Inside the definition of an animation only blocks of at-rules count. -/
theorem step_deep {k : Nat} (h : s.depth = k + 1)
    (hkind : e.kind ≠ .blockStart ∧ e.kind ≠ .blockEnd) : s.step e = .ok s := by
  rw [step, if_pos (by omega)]
  cases hcase : e.kind <;> simp_all

theorem run_deep {k : Nat} (h : s.depth = k + 1)
    (hkind : ∀ e ∈ es, e.kind ≠ .blockStart ∧ e.kind ≠ .blockEnd) : s.run es = .ok s := by
  induction es with
  | nil => rfl
  | cons e es ih =>
    exact run_cons_iff.2 ⟨s, step_deep h (hkind e List.mem_cons_self),
      ih fun x hx => hkind x (List.mem_cons_of_mem e hx)⟩

theorem step_blockStart_deep {k : Nat} (h : s.depth = k + 1) (hkind : e.kind = .blockStart) :
    s.step e = .ok { s with depth := k + 2 } := by
  simp [step, h, hkind]

theorem step_blockEnd_deep {k : Nat} (h : s.depth = k + 1) (hkind : e.kind = .blockEnd) :
    s.step e = .ok { s with depth := k } := by
  simp [step, h, hkind]

mutual

/-- Nothing is read inside the definition of an animation. -/
theorem run_events_deep {ctx : Context} : ∀ {n : Node}, n.Fits ctx → ∀ {s : Survey} {k : Nat},
    s.depth = k + 1 → s.run n.events = .ok s
  | .comment e, .comment kind, s, k, h => by
    rw [Node.events_comment, run_singleton]
    exact step_deep h (by simp [kind])
  | .declaration e, .declaration kind, s, k, h => by
    rw [Node.events_declaration, run_singleton]
    rcases kind with kind | kind <;> exact step_deep h (by simp [kind])
  | .statement e, .statement kind, s, k, h => by
    rw [Node.events_statement, run_singleton]
    exact step_deep h (by simp [kind])
  | .ruleset earlier last body stop, .ruleset hearlier hlast hstop fits, s, k, h => by
    have hselectors : s.run earlier = .ok s := run_deep h fun e he => by simp [hearlier e he]
    have hstart : s.step last = .ok s := step_deep h (by simp [hlast])
    have hend : s.run [stop] = .ok s := run_deep h (by simp [hstop])
    rw [Node.events_ruleset, run_append_iff]
    exact ⟨s, hselectors, run_cons_iff.2 ⟨s, hstart,
      run_append_iff.2 ⟨s, run_eventsIn_deep fits h, hend⟩⟩⟩
  | .block head body stop, .block hhead hstop fits, s, k, h => by
    have hstart := step_blockStart_deep h hhead
    have hend : run { s with depth := k + 2 } [stop] = .ok s := by
      rw [run_singleton, step_blockEnd_deep rfl hstop, ← h]
    rw [Node.events_block, run_cons_iff]
    exact ⟨_, hstart, run_append_iff.2 ⟨_, run_eventsIn_deep fits rfl, hend⟩⟩

theorem run_eventsIn_deep {ctx : Context} : ∀ {ns : List Node}, (∀ n ∈ ns, n.Fits ctx) →
    ∀ {s : Survey} {k : Nat}, s.depth = k + 1 → s.run (Node.eventsIn ns) = .ok s
  | [], _, s, k, h => by
    rw [Node.eventsIn_nil, run]
  | n :: ns, fits, s, k, h => by
    rw [Node.eventsIn_cons, run_append_iff]
    exact ⟨s, run_events_deep (fits n List.mem_cons_self) h,
      run_eventsIn_deep (fun m hm => fits m (List.mem_cons_of_mem n hm)) h⟩

end

/-- An event that begins no definition of an animation. -/
def Plain (e : Event) : Prop := e.kind = .blockStart → isKeyframes e.atName = false

theorem declare_depth (s : Survey) (e : Event) : (s.declare e).depth = s.depth := by
  unfold declare
  split
  · rfl
  · split
    · rfl
    · split <;> rfl

theorem endRule_depth (h : s.endRule = .ok t) : t.depth = s.depth := by
  unfold endRule at h
  dsimp only at h
  split at h
  · rw [← Except.ok.inj h]
  · split at h
    · simp at h
    · rw [← Except.ok.inj h]

theorem step_depth (h : s.depth = 0) (he : Plain e) (hstep : s.step e = .ok t) : t.depth = 0 := by
  rw [step, if_neg (by omega)] at hstep
  cases hkind : e.kind with
  | blockStart =>
    simp only [hkind, he hkind, Bool.false_eq_true, if_false, Except.ok.injEq] at hstep
    rwa [← hstep]
  | declaration =>
    simp only [hkind, Except.ok.injEq] at hstep
    rw [← hstep, declare_depth, h]
  | rulesetEnd =>
    simp only [hkind] at hstep
    rw [endRule_depth hstep, h]
  | _ =>
    simp only [hkind, Except.ok.injEq] at hstep
    rw [← hstep]
    exact h

theorem run_depth (h : s.depth = 0) (hes : ∀ e ∈ es, Plain e) (hrun : s.run es = .ok t) :
    t.depth = 0 := by
  induction es generalizing s with
  | nil =>
    obtain rfl := Except.ok.inj hrun
    exact h
  | cons e es ih =>
    obtain ⟨m, hstep, hrest⟩ := run_cons_iff.1 hrun
    exact ih (step_depth h (hes e List.mem_cons_self) hstep)
      (fun x hx => hes x (List.mem_cons_of_mem e hx)) hrest

/-- The definition of an animation leaves a survey as it was. -/
theorem run_animation {ctx : Context} {head stop : Event} {body : List Node} (h : s.depth = 0)
    (hhead : head.kind = .blockStart) (hname : isKeyframes head.atName)
    (hstop : stop.kind = .blockEnd) (fits : ∀ n ∈ body, n.Fits ctx)
    (hrun : s.run (head :: (Node.eventsIn body ++ [stop])) = .ok t) : t = s := by
  obtain ⟨m, hstart, hrest⟩ := run_cons_iff.1 hrun
  obtain ⟨m', hinside, hend⟩ := run_append_iff.1 hrest
  rw [step, if_neg (by omega)] at hstart
  simp only [hhead, hname, if_true, Except.ok.injEq] at hstart
  subst hstart
  rw [run_eventsIn_deep fits rfl] at hinside
  obtain rfl := Except.ok.inj hinside
  rw [run_singleton, step_blockEnd_deep rfl hstop, ← h] at hend
  exact (Except.ok.inj hend).symm

mutual

/-- A survey of a node reads the events outside the definitions of animations. -/
theorem run_events {ctx : Context} : ∀ {n : Node}, n.Fits ctx → ∀ {s t : Survey}, s.depth = 0 →
    s.run n.events = .ok t → s.run (surveyed n) = .ok t ∧ t.depth = 0
  | .comment e, .comment kind, s, t, h, hrun => by
    rw [Node.events_comment] at hrun
    rw [surveyed]
    exact ⟨hrun, run_depth h (by simp [Plain, kind]) hrun⟩
  | .declaration e, .declaration kind, s, t, h, hrun => by
    rw [Node.events_declaration] at hrun
    rw [surveyed]
    refine ⟨hrun, run_depth h ?_ hrun⟩
    rcases kind with kind | kind <;> simp [Plain, kind]
  | .statement e, .statement kind, s, t, h, hrun => by
    rw [Node.events_statement] at hrun
    rw [surveyed]
    exact ⟨hrun, run_depth h (by simp [Plain, kind]) hrun⟩
  | .ruleset earlier last body stop, .ruleset hearlier hlast hstop fits, s, t, h, hrun => by
    rw [Node.events_ruleset] at hrun
    obtain ⟨m₁, hselectors, hrest⟩ := run_append_iff.1 hrun
    obtain ⟨m₂, hstart, hrest⟩ := run_cons_iff.1 hrest
    obtain ⟨m₃, hinside, hend⟩ := run_append_iff.1 hrest
    have hdepth₁ := run_depth h (fun e he => by simp [Plain, hearlier e he]) hselectors
    have hdepth₂ := step_depth hdepth₁ (by simp [Plain, hlast]) hstart
    obtain ⟨hinside, hdepth₃⟩ := run_eventsIn fits hdepth₂ hinside
    rw [surveyed]
    exact ⟨run_append_iff.2 ⟨m₁, hselectors, run_cons_iff.2 ⟨m₂, hstart,
      run_append_iff.2 ⟨m₃, hinside, hend⟩⟩⟩, run_depth hdepth₃ (by simp [Plain, hstop]) hend⟩
  | .block head body stop, .block hhead hstop fits, s, t, h, hrun => by
    rw [Node.events_block] at hrun
    rw [surveyed]
    split
    · next hname =>
      obtain rfl := run_animation h hhead hname hstop fits hrun
      exact ⟨rfl, h⟩
    · next hname =>
      rw [Bool.not_eq_true] at hname
      obtain ⟨m₁, hstart, hrest⟩ := run_cons_iff.1 hrun
      obtain ⟨m₂, hinside, hend⟩ := run_append_iff.1 hrest
      have hdepth₁ := step_depth h (fun _ => hname) hstart
      obtain ⟨hinside, hdepth₂⟩ := run_eventsIn fits hdepth₁ hinside
      exact ⟨run_cons_iff.2 ⟨m₁, hstart, run_append_iff.2 ⟨m₂, hinside, hend⟩⟩,
        run_depth hdepth₂ (by simp [Plain, hstop]) hend⟩

theorem run_eventsIn {ctx : Context} : ∀ {ns : List Node}, (∀ n ∈ ns, n.Fits ctx) →
    ∀ {s t : Survey}, s.depth = 0 → s.run (Node.eventsIn ns) = .ok t →
      s.run (surveyedIn ns) = .ok t ∧ t.depth = 0
  | [], _, s, t, h, hrun => by
    rw [Node.eventsIn_nil, run] at hrun
    obtain rfl := Except.ok.inj hrun
    exact ⟨by rw [surveyedIn, run], h⟩
  | n :: ns, fits, s, t, h, hrun => by
    rw [Node.eventsIn_cons] at hrun
    obtain ⟨m, hfirst, hrest⟩ := run_append_iff.1 hrun
    obtain ⟨hfirst, hdepth⟩ := run_events (fits n List.mem_cons_self) h hfirst
    obtain ⟨hrest, hdepth'⟩ :=
      run_eventsIn (fun m hm => fits m (List.mem_cons_of_mem n hm)) hdepth hrest
    rw [surveyedIn]
    exact ⟨run_append_iff.2 ⟨m, hfirst, hrest⟩, hdepth'⟩

end

end Survey

mutual

theorem plain_of_surveyed {ctx : Context} : ∀ {n : Node}, n.Fits ctx →
    ∀ e ∈ surveyed n, Survey.Plain e
  | .comment e, .comment kind => by simp [surveyed, Survey.Plain, kind]
  | .declaration e, .declaration kind => by
    rcases kind with kind | kind <;> simp [surveyed, Survey.Plain, kind]
  | .statement e, .statement kind => by simp [surveyed, Survey.Plain, kind]
  | .ruleset earlier last body stop, .ruleset hearlier hlast hstop fits => by
    intro e he
    rw [surveyed, List.mem_append, List.mem_cons, List.mem_append, List.mem_singleton] at he
    rcases he with he | rfl | he | rfl
    · simp [Survey.Plain, hearlier e he]
    · simp [Survey.Plain, hlast]
    · exact plain_of_surveyedIn fits e he
    · simp [Survey.Plain, hstop]
  | .block head body stop, .block hhead hstop fits => by
    intro e he
    rw [surveyed] at he
    split at he
    · simp at he
    · next hname =>
      rw [List.mem_cons, List.mem_append, List.mem_singleton] at he
      rcases he with rfl | he | rfl
      · exact fun _ => Bool.not_eq_true _ ▸ hname
      · exact plain_of_surveyedIn fits e he
      · simp [Survey.Plain, hstop]

theorem plain_of_surveyedIn {ctx : Context} : ∀ {ns : List Node}, (∀ n ∈ ns, n.Fits ctx) →
    ∀ e ∈ surveyedIn ns, Survey.Plain e
  | [], _ => by simp [surveyedIn]
  | n :: ns, fits => by
    intro e he
    rw [surveyedIn, List.mem_append] at he
    rcases he with he | he
    · exact plain_of_surveyed (fits n List.mem_cons_self) e he
    · exact plain_of_surveyedIn (fun m hm => fits m (List.mem_cons_of_mem n hm)) e he

end

theorem References.append_def (r r' : References) :
    r ++ r' = ⟨r.fonts ++ r'.fonts, r.animations ++ r'.animations⟩ := rfl

/-! ## Stretches -/

/-- The stretches of some events up to the ends of rules, where the first has begun before them.
What comes after the last end of a rule is no stretch. -/
def stretchesFrom (begun : List Event) : List Event → List (List Event)
  | [] => []
  | e :: es =>
    if e.kind = .rulesetEnd then begun :: stretchesFrom [] es else stretchesFrom (begun ++ [e]) es

def isSelector (e : Event) : Bool := e.kind == .selector || e.kind == .rulesetStart

def selectorsIn (es : List Event) : List Event := es.filter isSelector

/-- The chains of the selectors that can be read. -/
def chainsIn (es : List Event) : List Chain :=
  (selectorsIn es).filterMap fun e => (parse e.text).toOption

/-- The font families that a declaration lists. -/
def familiesOf (e : Event) : List String :=
  if e.kind == .declaration && isFontFamily e.data then fontsIn e.values else []

def animationsOf (e : Event) : List String :=
  if e.kind == .declaration && !isFontFamily e.data && isAnimation e.data then
    animationsIn e.values
  else []

/-- The names that are listed after the first selector. -/
def namesIn (names : Event → List String) (es : List Event) : List String :=
  (es.dropWhile (!isSelector ·)).flatMap names

/-- What the end of a rule adds to the references. -/
def usesIn (es : List Event) : References :=
  ⟨pairs (namesIn familiesOf es) (chainsIn es), pairs (namesIn animationsOf es) (chainsIn es)⟩

theorem namesIn_concat (names : Event → List String) (es : List Event) (e : Event)
    (h : isSelector e → names e = []) :
    namesIn names (es ++ [e])
      = namesIn names es ++ if (selectorsIn es).isEmpty then [] else names e := by
  have hempty : (es.dropWhile (!isSelector ·)).isEmpty = (selectorsIn es).isEmpty := by
    induction es with
    | nil => rfl
    | cons x es ih =>
      unfold selectorsIn at ih ⊢
      cases hx : isSelector x <;> simp [hx, ih]
  unfold namesIn
  rw [List.dropWhile_append, hempty]
  split
  · next hnone =>
    have hnil : es.dropWhile (!isSelector ·) = [] := by rwa [← List.isEmpty_iff, hempty]
    rw [hnil]
    cases he : isSelector e with
    | true => simp [he, h he]
    | false => simp [he]
  · simp

theorem chains_eq_filterMap {texts : List String} {chains : List Chain}
    (h : chainsOf texts = .ok chains) :
    chains = texts.filterMap fun t => (parse t).toOption := by
  induction texts generalizing chains with
  | nil =>
    obtain rfl := Except.ok.inj h
    rfl
  | cons t texts ih =>
    rw [chainsOf] at h
    split at h
    · simp at h
    · next c hparse =>
      cases hrest : chainsOf texts with
      | error fault => simp [hrest, Functor.map, Except.map] at h
      | ok cs =>
        rw [hrest] at h
        obtain rfl : c :: cs = chains := Except.ok.inj h
        rw [List.filterMap_cons, hparse, ← ih hrest]
        rfl

/-- A survey has read the stretch that has begun. -/
structure Reads (begun : List Event) (s : Survey) : Prop where
  depth : s.depth = 0
  selectors : s.selectors = (selectorsIn begun).map Event.text
  fonts : s.fonts = namesIn familiesOf begun
  animations : s.animations = namesIn animationsOf begun

namespace Reads

variable {begun : List Event} {s t : Survey} {e : Event}

theorem initial : Reads [] Survey.initial := ⟨rfl, rfl, rfl, rfl⟩

/-- An event that is neither a selector nor a declaration adds no name. -/
theorem skip (h : Reads begun s) (hselector : isSelector e = false)
    (hkind : e.kind ≠ .declaration) : Reads (begun ++ [e]) s where
  depth := h.depth
  selectors := by simp [selectorsIn, hselector, h.selectors]
  fonts := by
    rw [h.fonts, namesIn_concat _ _ _ (by simp [hselector])]
    simp [familiesOf, hkind]
  animations := by
    rw [h.animations, namesIn_concat _ _ _ (by simp [hselector])]
    simp [animationsOf, hkind]

theorem select (h : Reads begun s) (hselector : isSelector e = true)
    (hkind : e.kind ≠ .declaration) :
    Reads (begun ++ [e]) { s with selectors := s.selectors ++ [e.text] } where
  depth := h.depth
  selectors := by simp [selectorsIn, hselector, h.selectors]
  fonts := by
    have hnone : familiesOf e = [] := by simp [familiesOf, hkind]
    rw [namesIn_concat _ _ _ fun _ => hnone, hnone, h.fonts]
    simp
  animations := by
    have hnone : animationsOf e = [] := by simp [animationsOf, hkind]
    rw [namesIn_concat _ _ _ fun _ => hnone, hnone, h.animations]
    simp

theorem declare (h : Reads begun s) (hkind : e.kind = .declaration) :
    Reads (begun ++ [e]) (s.declare e) ∧ (s.declare e).found = s.found := by
  have hselector : isSelector e = false := by simp [isSelector, hkind]
  have hselectors : selectorsIn (begun ++ [e]) = selectorsIn begun := by
    simp [selectorsIn, hselector]
  have hfonts := namesIn_concat familiesOf begun e (by simp [hselector])
  have hanimations := namesIn_concat animationsOf begun e (by simp [hselector])
  have hempty : s.selectors.isEmpty = (selectorsIn begun).isEmpty := by
    rw [h.selectors, List.isEmpty_map]
  rw [Survey.declare, hempty]
  split
  · next hnone =>
    refine ⟨⟨h.depth, by rw [hselectors, h.selectors], ?_, ?_⟩, rfl⟩
    · rw [h.fonts, hfonts, if_pos hnone, List.append_nil]
    · rw [h.animations, hanimations, if_pos hnone, List.append_nil]
  · next hsome =>
    rw [if_neg hsome] at hfonts hanimations
    split
    · next hfont =>
      refine ⟨⟨h.depth, by rw [hselectors, h.selectors], ?_, ?_⟩, rfl⟩
      · simp [hfonts, h.fonts, familiesOf, hkind, hfont]
      · simp [hanimations, h.animations, animationsOf, hfont]
    · next hfont =>
      split
      · next hanimation =>
        refine ⟨⟨h.depth, by rw [hselectors, h.selectors], ?_, ?_⟩, rfl⟩
        · simp [hfonts, h.fonts, familiesOf, hfont]
        · simp [hanimations, h.animations, animationsOf, hkind, hfont, hanimation]
      · next hanimation =>
        refine ⟨⟨h.depth, by rw [hselectors, h.selectors], ?_, ?_⟩, rfl⟩
        · simp [hfonts, h.fonts, familiesOf, hfont]
        · simp [hanimations, h.animations, animationsOf, hanimation]

theorem step (h : Reads begun s) (he : Survey.Plain e) (hkind : e.kind ≠ .rulesetEnd)
    (hstep : s.step e = .ok t) : Reads (begun ++ [e]) t ∧ t.found = s.found := by
  rw [Survey.step, if_neg (by rw [h.depth]; omega)] at hstep
  cases hcase : e.kind with
  | rulesetEnd => exact absurd hcase hkind
  | declaration =>
    simp only [hcase, Except.ok.injEq] at hstep
    rw [← hstep]
    exact h.declare hcase
  | selector =>
    simp only [hcase, Except.ok.injEq] at hstep
    rw [← hstep]
    exact ⟨h.select (by simp [isSelector, hcase]) (by simp [hcase]), rfl⟩
  | rulesetStart =>
    simp only [hcase, Except.ok.injEq] at hstep
    rw [← hstep]
    exact ⟨h.select (by simp [isSelector, hcase]) (by simp [hcase]), rfl⟩
  | blockStart =>
    simp only [hcase, he hcase, Bool.false_eq_true, if_false, Except.ok.injEq] at hstep
    rw [← hstep]
    exact ⟨h.skip (by simp [isSelector, hcase]) (by simp [hcase]), rfl⟩
  | _ =>
    simp only [hcase, Except.ok.injEq] at hstep
    rw [← hstep]
    exact ⟨h.skip (by simp [isSelector, hcase]) (by simp [hcase]), rfl⟩

theorem step_end (h : Reads begun s) (hkind : e.kind = .rulesetEnd) (hstep : s.step e = .ok t) :
    Reads [] t ∧ t.found = s.found ++ usesIn begun := by
  rw [Survey.step, if_neg (by rw [h.depth]; omega)] at hstep
  simp only [hkind, Survey.endRule] at hstep
  split at hstep
  · next hnone =>
    obtain rfl := Except.ok.inj hstep
    rw [Bool.and_eq_true, List.isEmpty_iff, List.isEmpty_iff, h.fonts, h.animations] at hnone
    refine ⟨⟨h.depth, rfl, rfl, rfl⟩, ?_⟩
    simp [usesIn, hnone, pairs, References.append_def]
  · split at hstep
    · simp at hstep
    · next chains hchains =>
      obtain rfl := Except.ok.inj hstep
      refine ⟨⟨h.depth, rfl, rfl, rfl⟩, ?_⟩
      rw [h.selectors] at hchains
      have hread : chains = chainsIn begun := by
        rw [chains_eq_filterMap hchains, chainsIn, List.filterMap_map]
        rfl
      rw [usesIn, hread, h.fonts, h.animations]

end Reads

/-- The references of some stretches in order. -/
def usesOf (stretches : List (List Event)) : References :=
  ⟨stretches.flatMap fun es => (usesIn es).fonts,
    stretches.flatMap fun es => (usesIn es).animations⟩

/-- A survey adds the references of the stretches that it reads. -/
theorem found_run {begun es : List Event} {s t : Survey} (h : Reads begun s)
    (hes : ∀ e ∈ es, Survey.Plain e) (hrun : s.run es = .ok t) :
    t.found = s.found ++ usesOf (stretchesFrom begun es) := by
  induction es generalizing begun s with
  | nil =>
    obtain rfl := Except.ok.inj hrun
    simp [stretchesFrom, usesOf, References.append_def]
  | cons e es ih =>
    obtain ⟨m, hstep, hrest⟩ := Survey.run_cons_iff.1 hrun
    have hothers : ∀ x ∈ es, Survey.Plain x := fun x hx => hes x (List.mem_cons_of_mem e hx)
    rw [stretchesFrom]
    split
    · next hkind =>
      obtain ⟨hm, hfound⟩ := h.step_end hkind hstep
      rw [ih hm hothers hrest, hfound]
      simp [usesOf, References.append_def]
    · next hkind =>
      obtain ⟨hm, hfound⟩ := h.step (hes e List.mem_cons_self) hkind hstep
      rw [ih hm hothers hrest, hfound]

/-- The stretches of a stylesheet. -/
def stretches (source : String) : List (List Event) :=
  stretchesFrom [] (surveyedIn (outline source))

/-- The references in a stylesheet are those of its stretches. -/
theorem ofSheet_eq {source : String} {refs : References}
    (h : References.ofSheet source = .ok refs) :
    (events source).error = none ∧ refs = usesOf (stretches source) := by
  rw [References.ofSheet] at h
  cases hrun : Survey.initial.run (events source).events with
  | error fault => simp [hrun] at h
  | ok t =>
    cases herror : (events source).error with
    | some fault => simp [hrun, herror] at h
    | none =>
      simp only [hrun, herror, Except.ok.injEq] at h
      refine ⟨rfl, ?_⟩
      rw [← outline_events herror] at hrun
      have hfits := outline_fits herror
      have hfound := found_run Reads.initial (plain_of_surveyedIn hfits)
        (Survey.run_eventsIn hfits rfl hrun).1
      rw [← h, hfound]
      rfl

/-- The chains of a name are those in the stretches that list it. -/
theorem mem_chains_pairs_iff {name : String} {c : Chain} (stretches : List (List Event))
    (names : Event → List String) :
    c ∈ NameUses.chains (stretches.flatMap fun es => pairs (namesIn names es) (chainsIn es)) name ↔
      ∃ es ∈ stretches, name ∈ namesIn names es ∧ c ∈ chainsIn es := by
  simp only [NameUses.chains, pairs, List.mem_map, List.mem_filter, List.mem_flatMap, beq_iff_eq]
  constructor
  · rintro ⟨⟨n, c'⟩, ⟨⟨es, hes, n', hn, c'', hc, heq⟩, rfl⟩, rfl⟩
    obtain ⟨rfl, rfl⟩ := Prod.mk.inj heq
    exact ⟨es, hes, hn, hc⟩
  · rintro ⟨es, hes, hn, hc⟩
    exact ⟨(name, c), ⟨⟨es, hes, name, hn, c, hc, rfl⟩, rfl⟩, rfl⟩

/-- A name is wanted if an included chain stands in a stretch that lists it. -/
theorem wanted_pairs_iff {index : Index} {name : String} (stretches : List (List Event))
    (names : Event → List String) :
    NameUses.wanted (stretches.flatMap fun es => pairs (namesIn names es) (chainsIn es)) index name
      ↔ ∃ es ∈ stretches, name ∈ namesIn names es ∧ ∃ c ∈ chainsIn es, index.includes c := by
  simp only [NameUses.wanted, List.any_eq_true, mem_chains_pairs_iff]
  constructor
  · rintro ⟨c, ⟨es, hes, hn, hc⟩, hincludes⟩
    exact ⟨es, hes, hn, c, hc, hincludes⟩
  · rintro ⟨es, hes, hn, c, hc, hincludes⟩
    exact ⟨c, ⟨es, hes, hn, hc⟩, hincludes⟩

/-- A font is wanted if a selector that is included stands in a stretch that lists the family. -/
theorem fontWanted_iff {source : String} {refs : References}
    (h : References.ofSheet source = .ok refs) (index : Index) (family : String) :
    refs.fontWanted index family ↔ ∃ es ∈ stretches source, family ∈ namesIn familiesOf es ∧
      ∃ c ∈ chainsIn es, index.includes c := by
  rw [(ofSheet_eq h).2, References.fontWanted]
  exact wanted_pairs_iff (stretches source) familiesOf

/-! ## Where a stretch runs -/

theorem stretchesFrom_append {es : List Event} (hes : ∀ e ∈ es, e.kind ≠ .rulesetEnd)
    (begun rest : List Event) :
    stretchesFrom begun (es ++ rest) = stretchesFrom (begun ++ es) rest := by
  induction es generalizing begun with
  | nil => simp
  | cons e es ih =>
    rw [List.cons_append, stretchesFrom, if_neg (hes e List.mem_cons_self),
      ih fun x hx => hes x (List.mem_cons_of_mem e hx)]
    simp

/-- What has begun is part of a stretch if the end of a rule follows. -/
theorem exists_stretch_of_begun {es : List Event} (h : ∃ stop ∈ es, stop.kind = .rulesetEnd)
    (begun : List Event) : ∃ back, begun ++ back ∈ stretchesFrom begun es := by
  induction es generalizing begun with
  | nil => simp at h
  | cons e es ih =>
    rw [stretchesFrom]
    split
    · exact ⟨[], by simp⟩
    · next hkind =>
      obtain ⟨stop, hstop, hend⟩ := h
      rcases List.mem_cons.1 hstop with rfl | hstop
      · exact absurd hend hkind
      · obtain ⟨back, hback⟩ := ih ⟨stop, hstop, hend⟩ (begun ++ [e])
        exact ⟨e :: back, by simpa using hback⟩

/-- Events without an end of a rule lie in one stretch, if one follows. -/
theorem exists_stretch {es after : List Event} (hes : ∀ e ∈ es, e.kind ≠ .rulesetEnd)
    (h : ∃ stop ∈ after, stop.kind = .rulesetEnd) (begun before : List Event) :
    ∃ front back, front ++ es ++ back ∈ stretchesFrom begun (before ++ (es ++ after)) := by
  induction before generalizing begun with
  | nil =>
    obtain ⟨back, hback⟩ := exists_stretch_of_begun h (begun ++ es)
    exact ⟨begun, back, by rwa [List.nil_append, stretchesFrom_append hes]⟩
  | cons e before ih =>
    rw [List.cons_append, stretchesFrom]
    split
    · obtain ⟨front, back, hmem⟩ := ih []
      exact ⟨front, back, List.mem_cons_of_mem _ hmem⟩
    · exact ih (begun ++ [e])

/-- What comes after a selector comes after the first one. -/
theorem mem_dropWhile_of_selector {selector e : Event} (front : List Event) {back : List Event}
    (hselector : isSelector selector) (he : e ∈ back) :
    e ∈ (front ++ selector :: back).dropWhile (!isSelector ·) := by
  have hdrop : (selector :: back).dropWhile (!isSelector ·) = selector :: back := by
    simp [hselector]
  rw [List.dropWhile_append, hdrop]
  split
  · exact List.mem_cons_of_mem _ he
  · exact List.mem_append_right _ (List.mem_cons_of_mem _ he)

/-- What is listed after a selector counts. -/
theorem mem_namesIn {names : Event → List String} {name : String} {selector e : Event}
    (front : List Event) {back : List Event} (hselector : isSelector selector) (he : e ∈ back)
    (hname : name ∈ names e) : name ∈ namesIn names (front ++ selector :: back) :=
  List.mem_flatMap.2 ⟨e, mem_dropWhile_of_selector front hselector he, hname⟩

/-- The at-rule does not define an animation. -/
def notKeyframes (e : Event) : Bool := !isKeyframes e.atName

/-- What is reached outside the definitions of animations is surveyed in one piece. -/
theorem surveyedIn_of_reaches {ns : List Node} {n : Node} (h : Node.Reaches notKeyframes ns n) :
    ∃ before after, surveyedIn ns = before ++ (surveyed n ++ after) := by
  induction h with
  | @here ns n h =>
    obtain ⟨front, back, rfl⟩ := List.append_of_mem h
    exact ⟨surveyedIn front, surveyedIn back, by rw [surveyedIn_append, surveyedIn]⟩
  | @inside ns body head stop n h lets _ ih =>
    obtain ⟨before, after, hbody⟩ := ih
    obtain ⟨front, back, rfl⟩ := List.append_of_mem h
    have hname : isKeyframes head.atName = false := by simpa [notKeyframes] using lets
    refine ⟨surveyedIn front ++ head :: before, after ++ stop :: surveyedIn back, ?_⟩
    rw [surveyedIn_append, surveyedIn, surveyed, hname, hbody]
    simp

mutual

/-- Where no rule is reached, no end of a rule is surveyed. -/
theorem kind_of_surveyed {ctx : Context} : ∀ {n : Node}, n.Fits ctx →
    (∀ m, Node.Reaches notKeyframes [n] m → m.isRule = false) →
      ∀ e ∈ surveyed n, e.kind ≠ .rulesetEnd
  | .comment e, .comment kind, _ => by simp [surveyed, kind]
  | .declaration e, .declaration kind, _ => by
    rcases kind with kind | kind <;> simp [surveyed, kind]
  | .statement e, .statement kind, _ => by simp [surveyed, kind]
  | .ruleset earlier last body stop, _, h => by
    have hrule := h _ (.here List.mem_cons_self)
    simp [Node.isRule] at hrule
  | .block head body stop, .block hhead hstop fits, h => by
    intro e he
    rw [surveyed] at he
    split at he
    · simp at he
    · next hname =>
      rw [List.mem_cons, List.mem_append, List.mem_singleton] at he
      have hbody : ∀ m, Node.Reaches notKeyframes body m → m.isRule = false := fun m hm =>
        h m (.inside List.mem_cons_self (by simpa [notKeyframes] using hname) hm)
      rcases he with rfl | he | rfl
      · simp [hhead]
      · exact kind_of_surveyedIn fits hbody e he
      · simp [hstop]

theorem kind_of_surveyedIn {ctx : Context} : ∀ {ns : List Node}, (∀ n ∈ ns, n.Fits ctx) →
    (∀ m, Node.Reaches notKeyframes ns m → m.isRule = false) →
      ∀ e ∈ surveyedIn ns, e.kind ≠ .rulesetEnd
  | [], _, _ => by simp [surveyedIn]
  | n :: ns, fits, h => by
    intro e he
    rw [surveyedIn, List.mem_append] at he
    rcases he with he | he
    · exact kind_of_surveyed (fits n List.mem_cons_self)
        (fun m hm => h m (hm.mono (by simp))) e he
    · exact kind_of_surveyedIn (fun m hm => fits m (List.mem_cons_of_mem n hm))
        (fun m hm => h m (hm.mono fun x hx => List.mem_cons_of_mem n hx)) e he

end

/-- A declaration of a rule, with no rule before it in the same body, lies in one stretch with the
selectors of the rule. -/
theorem exists_stretch_of_rule {ctx : Context} {ns before after : List Node} {earlier : List Event}
    {last stop e : Event} (hfits : ∀ n ∈ ns, n.Fits ctx)
    (hrule : Node.Reaches notKeyframes ns
      (.ruleset earlier last (before ++ .declaration e :: after) stop))
    (hbefore : ∀ m, Node.Reaches notKeyframes before m → m.isRule = false) :
    ∃ es ∈ stretchesFrom [] (surveyedIn ns),
      (∀ x ∈ earlier ++ [last], x ∈ es ∧ isSelector x) ∧
        ∀ (names : Event → List String), ∀ name ∈ names e, name ∈ namesIn names es := by
  obtain ⟨ctx', hfitsRule⟩ := hrule.fits hfits
  obtain ⟨front, back, hns⟩ := surveyedIn_of_reaches hrule
  cases hfitsRule with
  | ruleset hearlier hlast hstop fits =>
    have hfitsBefore : ∀ n ∈ before, n.Fits .declarations :=
      fun n hn => fits n (List.mem_append_left _ hn)
    have hkind : e.kind ≠ .rulesetEnd := by
      cases fits (.declaration e) (by simp) with
      | declaration kind => rcases kind with kind | kind <;> simp [kind]
    have hmiddle : ∀ x ∈ earlier ++ last :: (surveyedIn before ++ [e]), x.kind ≠ .rulesetEnd := by
      intro x hx
      rw [List.mem_append, List.mem_cons, List.mem_append, List.mem_singleton] at hx
      rcases hx with hx | rfl | hx | rfl
      · simp [hearlier x hx]
      · simp [hlast]
      · exact kind_of_surveyedIn hfitsBefore hbefore x hx
      · exact hkind
    obtain ⟨front', back', hmem⟩ := exists_stretch hmiddle
      (⟨stop, by simp, hstop⟩ :
        ∃ x ∈ surveyedIn after ++ stop :: back, x.kind = .rulesetEnd) [] front
    have hsheet : surveyedIn ns = front ++ ((earlier ++ last :: (surveyedIn before ++ [e]))
        ++ (surveyedIn after ++ stop :: back)) := by
      rw [hns, surveyed, surveyedIn_append, surveyedIn, surveyed]
      simp
    rw [← hsheet] at hmem
    refine ⟨_, hmem, ?_, ?_⟩
    · intro x hx
      rw [List.mem_append, List.mem_singleton] at hx
      rcases hx with hx | rfl
      · exact ⟨by simp [hx], by simp [isSelector, hearlier x hx]⟩
      · exact ⟨by simp, by simp [isSelector, hlast]⟩
    · intro names name hname
      have hselector : isSelector last := by simp [isSelector, hlast]
      have hdeclared : e ∈ surveyedIn before ++ e :: back' := by simp
      simpa using mem_namesIn (front' ++ earlier) hselector hdeclared hname

end StyleSieve.Usage
