import StyleSieve.Proofs.Purge.Run
import StyleSieve.Proofs.Usage.Survey

/-!
# Whose names are recorded

A name belongs to the rules that list it in their own bodies. A survey keeps one list of selectors
and one of names for the rule at hand, so it tells this as long as a rule that lists a name holds
no other rule. Where a rule stands inside another one, both share the lists up to the end of the
inner rule, and what the outer rule lists after that end is lost (`references_attributed`).
Declarations in other blocks inside a rule count as its own.
-/

namespace StyleSieve.Usage

open Css Selector

/-! ## Rules and what they list -/

/-- A rule: the selectors of its list and what stands in its block. -/
structure Rule where
  selectors : List Event
  body : List Node

mutual

/-- The rules in a node, wherever they stand outside the definitions of animations. -/
def rules : Node → List Rule
  | .comment _ => []
  | .declaration _ => []
  | .statement _ => []
  | .ruleset earlier last body _ => ⟨earlier ++ [last], body⟩ :: rulesIn body
  | .block head body _ => if isKeyframes head.atName then [] else rulesIn body

def rulesIn : List Node → List Rule
  | [] => []
  | n :: ns => rules n ++ rulesIn ns

end

/-- The declarations that stand among some nodes, and not inside them. -/
def declarationsOf (ns : List Node) : List Event :=
  ns.filterMap fun n =>
    match n with
    | .declaration e => some e
    | _ => none

/-- A declaration of fonts that names the family. -/
def ListsFamily (family : String) (e : Event) : Prop :=
  e.kind = .declaration ∧ isFontFamily e.data ∧ family ≠ "" ∧
    ∃ part ∈ splitAtCommas e.values, fontName (String.join part) = family

/-- A declaration of animations with the name among its components. -/
def ListsAnimation (name : String) (e : Event) : Prop :=
  e.kind = .declaration ∧ isAnimation e.data ∧ name ≠ "" ∧
    ∃ v ∈ e.values, v ≠ " " ∧ v ≠ "," ∧ Text.unquote v = name

instance (family : String) (e : Event) : Decidable (ListsFamily family e) :=
  inferInstanceAs (Decidable (_ ∧ _ ∧ _ ∧ _))

instance (name : String) (e : Event) : Decidable (ListsAnimation name e) :=
  inferInstanceAs (Decidable (_ ∧ _ ∧ _ ∧ _))

/-- One of the selectors can be read and has the chain. -/
def HasChain (selectors : List Event) (c : Chain) : Prop :=
  ∃ x ∈ selectors, (parse x.text).toOption = some c

instance (selectors : List Event) (c : Chain) : Decidable (HasChain selectors c) :=
  inferInstanceAs (Decidable (∃ x ∈ selectors, (parse x.text).toOption = some c))

/-- The rule has a selector with the chain, and a declaration in its own body that lists. -/
def Rule.Uses (lists : Event → Prop) (r : Rule) (c : Chain) : Prop :=
  HasChain r.selectors c ∧ ∃ e ∈ declarationsOf r.body, lists e

instance (lists : Event → Prop) [DecidablePred lists] (r : Rule) (c : Chain) :
    Decidable (r.Uses lists c) :=
  inferInstanceAs (Decidable (_ ∧ _))

/-- If something in the rule lists, at whatever depth, it does so in the rule's own body, and there
is no other rule in the rule. -/
def Rule.ListsPlainly (lists : Event → Prop) (r : Rule) : Prop :=
  ∀ e ∈ surveyedIn r.body, lists e → e ∈ declarationsOf r.body ∧ rulesIn r.body = []

instance (lists : Event → Prop) [DecidablePred lists] (r : Rule) :
    Decidable (r.ListsPlainly lists) :=
  inferInstanceAs (Decidable (∀ e ∈ surveyedIn r.body, lists e → _ ∧ _))

/-- A stretch has a selector with the chain, and something that lists after its first selector. -/
def Attests (lists : Event → Prop) (es : List Event) (c : Chain) : Prop :=
  (∃ e ∈ es.dropWhile (!isSelector ·), lists e) ∧ HasChain (selectorsIn es) c

/-- How the chains that are recorded for a name come from a stylesheet. -/
structure Attributed (lists : Event → Prop) (source : String) (chains : List Chain) : Prop where
  /-- In every stylesheet they are those of the stretches in which the name is listed. -/
  stretched : ∀ c, c ∈ chains ↔ ∃ es ∈ stretches source, Attests lists es c
  /-- A rule is never missed for what it lists before the rules inside it, wherever it stands. -/
  listed : ∀ r ∈ rulesIn (outline source), ∀ before e after,
    r.body = before ++ .declaration e :: after → rulesIn before = [] → lists e →
      ∀ c, HasChain r.selectors c → c ∈ chains
  /-- They are just those of the rules that list the name, if these hold no other rule. -/
  plain : (∀ r ∈ rulesIn (outline source), r.ListsPlainly lists) →
    ∀ c, c ∈ chains ↔ ∃ r ∈ rulesIn (outline source), r.Uses lists c

/-! ## Listing -/

theorem mem_fontsIn_iff {values : List String} {family : String} : family ∈ fontsIn values ↔
    family ≠ "" ∧ ∃ part ∈ splitAtCommas values, fontName (String.join part) = family := by
  simp [fontsIn, and_comm]

theorem mem_animationsIn_iff {values : List String} {name : String} : name ∈ animationsIn values ↔
    name ≠ "" ∧ ∃ v ∈ values, v ≠ " " ∧ v ≠ "," ∧ Text.unquote v = name := by
  simp only [animationsIn, List.mem_filter, List.mem_map, Bool.and_eq_true, bne_iff_ne,
    Bool.not_eq_true', String.isEmpty_eq_false_iff, and_assoc]
  exact and_comm

theorem mem_familiesOf_iff {e : Event} {family : String} :
    family ∈ familiesOf e ↔ ListsFamily family e := by
  unfold familiesOf ListsFamily
  split
  · next h =>
    obtain ⟨hkind, hfont⟩ : e.kind = .declaration ∧ isFontFamily e.data := by simpa using h
    rw [mem_fontsIn_iff]
    simp [hkind, hfont]
  · next h =>
    simp only [Bool.and_eq_true, beq_iff_eq, not_and] at h
    simp only [List.not_mem_nil, false_iff]
    rintro ⟨hkind, hfont, -⟩
    exact h hkind hfont

/-- No property is one of fonts and one of animations. -/
theorem not_isFontFamily_of_isAnimation {property : String} (h : isAnimation property) :
    isFontFamily property = false := by
  rw [Bool.eq_false_iff]
  intro hfont
  rw [isFontFamily, Text.sameAscii_iff] at hfont
  simp only [isAnimation, Bool.or_eq_true, Text.sameAscii_iff, hfont] at h
  revert h
  decide

theorem mem_animationsOf_iff {e : Event} {name : String} :
    name ∈ animationsOf e ↔ ListsAnimation name e := by
  unfold animationsOf ListsAnimation
  split
  · next h =>
    simp only [Bool.and_eq_true, beq_iff_eq] at h
    rw [mem_animationsIn_iff]
    simp [h.1.1, h.2]
  · next h =>
    simp only [List.not_mem_nil, false_iff]
    rintro ⟨hkind, hanimation, -⟩
    exact h (by simp [hkind, hanimation, not_isFontFamily_of_isAnimation hanimation])

theorem mem_chainsIn_iff {es : List Event} {c : Chain} :
    c ∈ chainsIn es ↔ HasChain (selectorsIn es) c := by
  unfold chainsIn HasChain
  exact List.mem_filterMap

/-- The chains that stretches give to a name. -/
theorem mem_chains_iff {stretches : List (List Event)} {names : Event → List String}
    {name : String} {lists : Event → Prop} (hlists : ∀ e, name ∈ names e ↔ lists e) {c : Chain} :
    c ∈ NameUses.chains (stretches.flatMap fun es => pairs (namesIn names es) (chainsIn es)) name ↔
      ∃ es ∈ stretches, Attests lists es c := by
  rw [mem_chains_pairs_iff]
  simp only [namesIn, List.mem_flatMap, Attests, ← mem_chainsIn_iff, ← hlists]

/-! ## Where the rules stand -/

theorem rulesIn_append (ns ns' : List Node) : rulesIn (ns ++ ns') = rulesIn ns ++ rulesIn ns' := by
  induction ns with
  | nil => rw [rulesIn, List.nil_append, List.nil_append]
  | cons n ns ih => rw [List.cons_append, rulesIn, rulesIn, ih, List.append_assoc]

/-- An event that neither belongs to a list of selectors nor ends a rule. -/
def Bare (e : Event) : Prop := e.kind ≠ .rulesetEnd ∧ isSelector e = false

mutual

/-- Where there is no rule, no selector and no end of a rule is surveyed. -/
theorem bare_of_surveyed {ctx : Context} : ∀ {n : Node}, n.Fits ctx → rules n = [] →
    ∀ e ∈ surveyed n, Bare e
  | .comment e, .comment kind => by simp [surveyed, Bare, isSelector, kind]
  | .declaration e, .declaration kind => by
    rcases kind with kind | kind <;> simp [surveyed, Bare, isSelector, kind]
  | .statement e, .statement kind => by simp [surveyed, Bare, isSelector, kind]
  | .ruleset earlier last body stop, _ => by simp [rules]
  | .block head body stop, .block hhead hstop fits => by
    intro h e he
    rw [surveyed] at he
    rw [rules] at h
    split at he
    · simp at he
    · next hname =>
      rw [if_neg hname] at h
      rw [List.mem_cons, List.mem_append, List.mem_singleton] at he
      rcases he with rfl | he | rfl
      · simp [Bare, isSelector, hhead]
      · exact bare_of_surveyedIn fits h e he
      · simp [Bare, isSelector, hstop]

theorem bare_of_surveyedIn {ctx : Context} : ∀ {ns : List Node}, (∀ n ∈ ns, n.Fits ctx) →
    rulesIn ns = [] → ∀ e ∈ surveyedIn ns, Bare e
  | [], _ => by simp [surveyedIn]
  | n :: ns, fits => by
    intro h e he
    rw [rulesIn, List.append_eq_nil_iff] at h
    rw [surveyedIn, List.mem_append] at he
    rcases he with he | he
    · exact bare_of_surveyed (fits n List.mem_cons_self) h.1 e he
    · exact bare_of_surveyedIn (fun m hm => fits m (List.mem_cons_of_mem n hm)) h.2 e he

end

/-- A rule is surveyed in one piece: its selectors, what its block holds, and its end. -/
structure Stands (r : Rule) (es : List Event) : Prop where
  piece : ∃ front stop back, stop.kind = .rulesetEnd ∧
    es = front ++ (r.selectors ++ (surveyedIn r.body ++ stop :: back))
  selectors : ∀ x ∈ r.selectors, isSelector x ∧ x.kind ≠ .rulesetEnd
  fits : ∀ n ∈ r.body, n.Fits .declarations

theorem Stands.among {r : Rule} {es : List Event} (h : Stands r es) (before after : List Event) :
    Stands r (before ++ (es ++ after)) := by
  obtain ⟨⟨front, stop, back, hstop, rfl⟩, hselectors, hfits⟩ := h
  exact ⟨⟨before ++ front, stop, back ++ after, hstop, by simp⟩, hselectors, hfits⟩

theorem isSelector_of_mem_selectors {earlier : List Event} {last : Event}
    (hearlier : ∀ e ∈ earlier, e.kind = .selector) (hlast : last.kind = .rulesetStart) :
    ∀ x ∈ earlier ++ [last], isSelector x ∧ x.kind ≠ .rulesetEnd := by
  intro x hx
  rw [List.mem_append, List.mem_singleton] at hx
  rcases hx with hx | rfl
  · simp [isSelector, hearlier x hx]
  · simp [isSelector, hlast]

mutual

theorem stands_of_mem_rules {ctx : Context} : ∀ {n : Node}, n.Fits ctx → ∀ r ∈ rules n,
    Stands r (surveyed n)
  | .comment e, _ => by simp [rules]
  | .declaration e, _ => by simp [rules]
  | .statement e, _ => by simp [rules]
  | .ruleset earlier last body stop, .ruleset hearlier hlast hstop fits => by
    intro r hr
    rw [rules, List.mem_cons] at hr
    rw [surveyed]
    rcases hr with rfl | hr
    · exact ⟨⟨[], stop, [], hstop, by simp⟩, isSelector_of_mem_selectors hearlier hlast, fits⟩
    · simpa using (stands_of_mem_rulesIn fits r hr).among (earlier ++ [last]) [stop]
  | .block head body stop, .block hhead hstop fits => by
    intro r hr
    rw [rules] at hr
    rw [surveyed]
    split at hr
    · simp at hr
    · next hname =>
      rw [if_neg hname]
      simpa using (stands_of_mem_rulesIn fits r hr).among [head] [stop]

theorem stands_of_mem_rulesIn {ctx : Context} : ∀ {ns : List Node}, (∀ n ∈ ns, n.Fits ctx) →
    ∀ r ∈ rulesIn ns, Stands r (surveyedIn ns)
  | [], _ => by simp [rulesIn]
  | n :: ns, fits => by
    intro r hr
    rw [rulesIn, List.mem_append] at hr
    rw [surveyedIn]
    rcases hr with hr | hr
    · exact (stands_of_mem_rules (fits n List.mem_cons_self) r hr).among [] (surveyedIn ns)
    · simpa using (stands_of_mem_rulesIn (fun m hm => fits m (List.mem_cons_of_mem n hm)) r
        hr).among (surveyed n) []

end

/-! ## Stretches over rules -/

/-- What has begun when the events end. -/
def begunAfter (begun : List Event) : List Event → List Event
  | [] => begun
  | e :: es => if e.kind = .rulesetEnd then begunAfter [] es else begunAfter (begun ++ [e]) es

theorem stretchesFrom_concat (begun es es' : List Event) : stretchesFrom begun (es ++ es') =
    stretchesFrom begun es ++ stretchesFrom (begunAfter begun es) es' := by
  induction es generalizing begun with
  | nil => rfl
  | cons e es ih =>
    rw [List.cons_append, stretchesFrom, stretchesFrom, begunAfter]
    split
    · rw [ih, List.cons_append]
    · rw [ih]

theorem begunAfter_append (begun es es' : List Event) :
    begunAfter begun (es ++ es') = begunAfter (begunAfter begun es) es' := by
  induction es generalizing begun with
  | nil => rfl
  | cons e es ih =>
    rw [List.cons_append, begunAfter, begunAfter]
    split <;> rw [ih]

/-- A stretch is made of the events, after what has begun before them if it is the first. -/
theorem mem_stretchesFrom {begun es s : List Event} (h : s ∈ stretchesFrom begun es) :
    s ⊆ es ∨ ∃ more, more ⊆ es ∧ s = begun ++ more := by
  induction es generalizing begun with
  | nil => simp [stretchesFrom] at h
  | cons e es ih =>
    have hmore : es ⊆ e :: es := List.subset_cons_self e es
    rw [stretchesFrom] at h
    split at h
    · rcases List.mem_cons.1 h with rfl | h
      · exact .inr ⟨[], List.nil_subset _, by simp⟩
      · rcases ih h with hs | ⟨more, hsub, rfl⟩
        · exact .inl fun x hx => hmore (hs hx)
        · exact .inl fun x hx => hmore (hsub (by simpa using hx))
    · rcases ih h with hs | ⟨more, hsub, rfl⟩
      · exact .inl fun x hx => hmore (hs hx)
      · refine .inr ⟨e :: more, ?_, by simp⟩
        exact List.cons_subset_cons e hsub

/-- What comes after the first selector of a stretch has not begun before the first selector. -/
theorem mem_of_mem_stretch {begun es s : List Event} {e : Event}
    (hbegun : ∀ x ∈ begun, isSelector x = false) (h : s ∈ stretchesFrom begun es)
    (he : e ∈ s.dropWhile (!isSelector ·)) : e ∈ es := by
  rcases mem_stretchesFrom h with hs | ⟨more, hsub, rfl⟩
  · exact hs ((List.dropWhile_sublist _).subset he)
  · rw [List.dropWhile_append_of_pos (by simpa using hbegun)] at he
    exact hsub ((List.dropWhile_sublist _).subset he)

/-- The stretches of some events attest uses by the rules only, and no list of selectors is left at
their end, provided that none has begun before them. -/
def Settles (lists : Event → Prop) (es : List Event) (rs : List Rule) : Prop :=
  ∀ begun, (∀ x ∈ begun, isSelector x = false) →
    (∀ x ∈ begunAfter begun es, isSelector x = false) ∧
      ∀ s ∈ stretchesFrom begun es, ∀ c, Attests lists s c → ∃ r ∈ rs, r.Uses lists c

namespace Settles

variable {lists : Event → Prop} {es es' : List Event} {rs rs' : List Rule}

theorem append (h : Settles lists es rs) (h' : Settles lists es' rs') :
    Settles lists (es ++ es') (rs ++ rs') := by
  intro begun hbegun
  obtain ⟨hrest, hfirst⟩ := h begun hbegun
  obtain ⟨hrest', hsecond⟩ := h' _ hrest
  refine ⟨by rwa [begunAfter_append], fun s hs c hc => ?_⟩
  rw [stretchesFrom_concat, List.mem_append] at hs
  rcases hs with hs | hs
  · obtain ⟨r, hr, huses⟩ := hfirst s hs c hc
    exact ⟨r, List.mem_append_left _ hr, huses⟩
  · obtain ⟨r, hr, huses⟩ := hsecond s hs c hc
    exact ⟨r, List.mem_append_right _ hr, huses⟩

theorem of_bare (h : ∀ e ∈ es, Bare e) : Settles lists es [] := by
  intro begun hbegun
  have hstretches := stretchesFrom_append (fun e he => (h e he).1) begun []
  have hbegun' : begunAfter begun es = begun ++ es := by
    clear hstretches hbegun
    induction es generalizing begun with
    | nil => simp [begunAfter]
    | cons e es ih =>
      rw [begunAfter, if_neg (h e List.mem_cons_self).1,
        ih fun x hx => h x (List.mem_cons_of_mem e hx)]
      simp
  rw [List.append_nil] at hstretches
  refine ⟨fun x hx => ?_, by simp [hstretches, stretchesFrom]⟩
  rw [hbegun', List.mem_append] at hx
  exact hx.elim (hbegun x) fun hx => (h x hx).2

/-- A rule that lists plainly attests its own uses. -/
theorem rule {r : Rule} {stop : Event} (hlists : ∀ e, lists e → e.kind = .declaration)
    (hselectors : ∀ x ∈ r.selectors, isSelector x ∧ x.kind ≠ .rulesetEnd)
    (fits : ∀ n ∈ r.body, n.Fits .declarations) (hstop : stop.kind = .rulesetEnd)
    (hplain : r.ListsPlainly lists) :
    Settles lists (r.selectors ++ (surveyedIn r.body ++ [stop])) [r] := by
  intro begun hbegun
  refine ⟨?_, fun s hs c hc => ⟨r, List.mem_singleton_self r, ?_⟩⟩
  · rw [begunAfter_append, begunAfter_append, begunAfter, if_pos hstop, begunAfter]
    simp
  obtain ⟨⟨e, he, hlist⟩, x, hx, hparse⟩ := hc
  -- What lists stands in the block, for a selector and the end of a rule do not list.
  have hinside : e ∈ surveyedIn r.body := by
    have hmem := mem_of_mem_stretch hbegun hs he
    rw [List.mem_append, List.mem_append, List.mem_singleton] at hmem
    have hkind := hlists e hlist
    rcases hmem with hmem | hmem | rfl
    · have hselector := (hselectors e hmem).1
      simp [isSelector, hkind] at hselector
    · exact hmem
    · simp [hkind] at hstop
  obtain ⟨hown, hnone⟩ := hplain e hinside hlist
  have hbare := bare_of_surveyedIn fits hnone
  have hends : ∀ y ∈ r.selectors ++ surveyedIn r.body, y.kind ≠ .rulesetEnd := by
    intro y hy
    rw [List.mem_append] at hy
    exact hy.elim (fun hy => (hselectors y hy).2) fun hy => (hbare y hy).1
  rw [← List.append_assoc, stretchesFrom_append hends, stretchesFrom, if_pos hstop, stretchesFrom,
    List.mem_singleton] at hs
  subst hs
  refine ⟨⟨x, ?_, hparse⟩, e, hown, hlist⟩
  simp only [selectorsIn, List.mem_filter, List.mem_append] at hx
  rcases hx with ⟨hx | hx | hx, hselector⟩
  · simp [hbegun x hx] at hselector
  · exact hx
  · simp [(hbare x hx).2] at hselector

theorem mono (h : Settles lists es rs) (hsub : rs ⊆ rs') : Settles lists es rs' := by
  intro begun hbegun
  obtain ⟨hrest, hattests⟩ := h begun hbegun
  refine ⟨hrest, fun s hs c hc => ?_⟩
  obtain ⟨r, hr, huses⟩ := hattests s hs c hc
  exact ⟨r, hsub hr, huses⟩

end Settles

mutual

theorem settles_surveyed {lists : Event → Prop} (hlists : ∀ e, lists e → e.kind = .declaration)
    {ctx : Context} : ∀ {n : Node}, n.Fits ctx → (∀ r ∈ rules n, r.ListsPlainly lists) →
      Settles lists (surveyed n) (rules n)
  | .comment e, .comment kind => fun _ => by
    rw [surveyed, rules]
    exact .of_bare (by simp [Bare, isSelector, kind])
  | .declaration e, .declaration kind => fun _ => by
    rw [surveyed, rules]
    refine .of_bare ?_
    rcases kind with kind | kind <;> simp [Bare, isSelector, kind]
  | .statement e, .statement kind => fun _ => by
    rw [surveyed, rules]
    exact .of_bare (by simp [Bare, isSelector, kind])
  | .ruleset earlier last body stop, .ruleset hearlier hlast hstop fits => fun hplain => by
    rw [surveyed, rules]
    rw [rules] at hplain
    have hrule := Settles.rule hlists (isSelector_of_mem_selectors hearlier hlast) fits hstop
      (hplain ⟨earlier ++ [last], body⟩ List.mem_cons_self)
    rw [List.append_assoc, List.singleton_append] at hrule
    exact hrule.mono (by simp)
  | .block head body stop, .block hhead hstop fits => fun hplain => by
    rw [surveyed, rules]
    rw [rules] at hplain
    split
    · exact .of_bare (by simp)
    · next hname =>
      rw [if_neg hname] at hplain
      have hhead' : Settles lists [head] [] := .of_bare (by simp [Bare, isSelector, hhead])
      have hstop' : Settles lists [stop] [] := .of_bare (by simp [Bare, isSelector, hstop])
      simpa using hhead'.append ((settles_surveyedIn hlists fits hplain).append hstop')

theorem settles_surveyedIn {lists : Event → Prop} (hlists : ∀ e, lists e → e.kind = .declaration)
    {ctx : Context} : ∀ {ns : List Node}, (∀ n ∈ ns, n.Fits ctx) →
      (∀ r ∈ rulesIn ns, r.ListsPlainly lists) → Settles lists (surveyedIn ns) (rulesIn ns)
  | [], _ => fun _ => by
    rw [surveyedIn, rulesIn]
    exact .of_bare (by simp)
  | n :: ns, fits => fun hplain => by
    rw [surveyedIn, rulesIn]
    rw [rulesIn] at hplain
    exact (settles_surveyed hlists (fits n List.mem_cons_self)
      fun r hr => hplain r (List.mem_append_left _ hr)).append
        (settles_surveyedIn hlists (fun m hm => fits m (List.mem_cons_of_mem n hm))
          fun r hr => hplain r (List.mem_append_right _ hr))

end

/-! ## Attribution -/

theorem mem_declarationsOf {ns : List Node} {e : Event} :
    e ∈ declarationsOf ns ↔ .declaration e ∈ ns := by
  simp only [declarationsOf, List.mem_filterMap]
  constructor
  · rintro ⟨n, hn, h⟩
    split at h
    · obtain rfl := Option.some.inj h
      exact hn
    · simp at h
  · intro h
    exact ⟨_, h, rfl⟩

theorem mem_surveyedIn_of_declaration {ns : List Node} {e : Event} (h : .declaration e ∈ ns) :
    e ∈ surveyedIn ns := by
  obtain ⟨front, back, rfl⟩ := List.append_of_mem h
  simp [surveyedIn_append, surveyedIn, surveyed]

/-- What is surveyed in a rule before any other rule inside it shares a stretch with the selectors
of the rule. -/
theorem Stands.attests {lists : Event → Prop} {r : Rule} {es before after : List Event} {e : Event}
    {c : Chain} (h : Stands r es) (hbody : surveyedIn r.body = before ++ e :: after)
    (hbefore : ∀ x ∈ before, Bare x) (hlists : lists e) (hkind : e.kind = .declaration)
    (hchain : HasChain r.selectors c) : ∃ s ∈ stretchesFrom [] es, Attests lists s c := by
  obtain ⟨⟨front, stop, back, hstop, rfl⟩, hselectors, hfits⟩ := h
  have hends : ∀ x ∈ r.selectors ++ (before ++ [e]), x.kind ≠ .rulesetEnd := by
    intro x hx
    rw [List.mem_append, List.mem_append, List.mem_singleton] at hx
    rcases hx with hx | hx | rfl
    · exact (hselectors x hx).2
    · exact (hbefore x hx).1
    · simp [hkind]
  obtain ⟨front', back', hmem⟩ := exists_stretch hends
    (⟨stop, by simp, hstop⟩ : ∃ x ∈ after ++ stop :: back, x.kind = .rulesetEnd) [] front
  rw [hbody]
  obtain ⟨x, hx, hparse⟩ := hchain
  refine ⟨_, by simpa using hmem, ⟨e, ?_, hlists⟩, x, ?_, hparse⟩
  · obtain ⟨first, others, hsplit⟩ := List.append_of_mem hx
    have hdropped := mem_dropWhile_of_selector (front' ++ first) (hselectors x hx).1
      (by simp : e ∈ others ++ (before ++ e :: back'))
    simpa [hsplit] using hdropped
  · simp [selectorsIn, hx, (hselectors x hx).1]

/-- The chains of the stretches in which a name is listed. -/
theorem attributed_of_stretches {lists : Event → Prop} {source : String} {chains : List Chain}
    (herror : (events source).error = none) (hkind : ∀ e, lists e → e.kind = .declaration)
    (hchains : ∀ c, c ∈ chains ↔ ∃ es ∈ stretches source, Attests lists es c) :
    Attributed lists source chains := by
  have hfits := outline_fits herror
  have hlisted : ∀ r ∈ rulesIn (outline source), ∀ before e after,
      r.body = before ++ .declaration e :: after → rulesIn before = [] → lists e →
        ∀ c, HasChain r.selectors c → c ∈ chains := by
    intro r hr before e after hbody hbefore hlists c hchain
    have hstands := stands_of_mem_rulesIn hfits r hr
    have hbare := bare_of_surveyedIn (fun n hn => hstands.fits n (by simp [hbody, hn])) hbefore
    have hsurveyed : surveyedIn r.body = surveyedIn before ++ e :: surveyedIn after := by
      rw [hbody, surveyedIn_append, surveyedIn, surveyed, List.singleton_append]
    exact (hchains c).2 (hstands.attests hsurveyed hbare hlists (hkind e hlists) hchain)
  refine ⟨hchains, hlisted, fun hplain c => ?_⟩
  constructor
  · intro hc
    obtain ⟨es, hes, hattests⟩ := (hchains c).1 hc
    exact (settles_surveyedIn hkind hfits hplain [] (by simp)).2 es hes c hattests
  · rintro ⟨r, hr, hchain, e, he, hlists⟩
    have hmem := mem_declarationsOf.1 he
    have hnone := (hplain r hr e (mem_surveyedIn_of_declaration hmem) hlists).2
    obtain ⟨before, after, hbody⟩ := List.append_of_mem hmem
    rw [hbody, rulesIn_append, List.append_eq_nil_iff] at hnone
    exact hlisted r hr before e after hbody hnone.1 hlists c hchain

/-- Fonts and animations are recorded for the chains of the rules that list them, wherever a rule
stands, except that a rule shares its selectors and its names with a rule inside it, up to the end
of that. -/
theorem references_attributed {source : String} {refs : References}
    (h : References.ofSheet source = .ok refs) (name : String) :
    Attributed (ListsFamily name) source (refs.fonts.chains name) ∧
      Attributed (ListsAnimation name) source (refs.animations.chains name) := by
  obtain ⟨herror, rfl⟩ := ofSheet_eq h
  exact ⟨attributed_of_stretches herror (fun e he => he.1)
      fun c => mem_chains_iff fun e => mem_familiesOf_iff,
    attributed_of_stretches herror (fun e he => he.1)
      fun c => mem_chains_iff fun e => mem_animationsOf_iff⟩

/-- Rules in a group, after an at-rule and around a rule that lists nothing. -/
theorem references_attributed_beside_blocks :
    let source := "@media print\x7ba,b\x7banimation:k 1s\x7d\x7d" ++
      "i\x7b@page\x7bmargin:0\x7danimation-name:\"k\"\x7du\x7b@media print\x7bp\x7bx:k\x7d\x7d\x7d"
    ∃ refs, References.ofSheet source = .ok refs ∧
      refs.animations.chains "k" = [[.ofTag "a"], [.ofTag "b"], [.ofTag "i"]] ∧
      ∀ c, c ∈ refs.animations.chains "k" ↔
        ∃ r ∈ rulesIn (outline source), r.Uses (ListsAnimation "k") c := by
  intro source
  have hread : (References.ofSheet source).toOption.map (·.animations.chains "k")
      = some [[.ofTag "a"], [.ofTag "b"], [.ofTag "i"]] := by decide +kernel
  obtain ⟨refs, hrefs, hchains⟩ := Option.map_eq_some_iff.1 hread
  have hrefs' : References.ofSheet source = .ok refs := Purge.ok_of_toOption hrefs
  exact ⟨refs, hrefs', hchains, (references_attributed hrefs' "k").2.plain (by decide +kernel)⟩

/-- A rule inside another one takes the names that the outer rule has listed, ends what counts for
the outer rule, and lists for both; and what another block inside a rule lists counts for the
rule. -/
theorem not_attributed_inner_rule :
    let recorded := fun source => (References.ofSheet source).toOption.map (·.fonts.chains "X")
    let uses := fun source tag =>
      decide (∃ r ∈ rulesIn (outline source), r.Uses (ListsFamily "X") [.ofTag tag])
    let lost := "a\x7b@media print\x7bb\x7bcolor:red\x7d\x7dfont-family:X\x7d"
    let taken := "a\x7bfont-family:X;@media print\x7bb\x7bcolor:red\x7d\x7d\x7d"
    let shared := "a\x7b@media print\x7bb\x7bfont-family:X\x7d\x7d\x7d"
    let page := "a\x7b@page\x7bfont-family:X\x7d\x7d"
    (uses lost "a" ∧ recorded lost = some []) ∧
      (uses taken "b" = false ∧ recorded taken = some [[.ofTag "a"], [.ofTag "b"]]) ∧
      (uses shared "a" = false ∧ recorded shared = some [[.ofTag "a"], [.ofTag "b"]]) ∧
      (uses page "a" = false ∧ recorded page = some [[.ofTag "a"]]) := by
  decide +kernel

end StyleSieve.Usage
