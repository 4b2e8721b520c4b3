import StyleSieve.Proofs.Css.Outline

/-!
# The grammar of stylesheets

A text is read without a fault just when its trees are those of phrases that obey the rules, and the
events are then those of the phrases, nested as they are (`accepts_iff_derives`).
-/

namespace StyleSieve.Css

open StyleSieve.Css.Tree (isSemicolon isColon isComma isCurly isGap endsSelector endsPrelude
  rawOf widthOf)

namespace Phrase

/-! ## Events -/

/-- The events of selectors before the last. -/
def selectorEvents (pos : Nat) : List (List Tree × Tree) → List Event
  | [] => []
  | s :: earlier =>
    selectorEvent .selector pos s.1 :: selectorEvents (pos + widthOf s.1 + s.2.width) earlier

mutual

/-- The nodes of a phrase that begins at byte `pos`: one, or none if it is mere filling. -/
def outlineAt (pos : Nat) : Phrase → List Node
  | filler _ => []
  | comment t => [.comment (commentEvent pos t)]
  | declaration name gap colon value =>
    let stop := pos + widthOf (name :: (gap ++ colon :: value))
    [.declaration (declarationEvent name value ⟨pos, stop⟩)]
  | statement keyword prelude stop =>
    let stop := pos + widthOf (keyword :: (prelude ++ stop.toList))
    [.statement ⟨.statement, keyword.text, components prelude, ⟨pos, stop⟩⟩]
  | block keyword prelude head body close =>
    let here := pos + keyword.width + widthOf prelude
    let curly := Tree.block head (treesOf body) close
    [.block ⟨.blockStart, keyword.text, components prelude, ⟨pos, here⟩⟩
      (outlinesAt (here + Text.width head.raw) body)
      (endEvent .blockEnd curly (here + curly.width))]
  | ruleset earlier last head body close =>
    let start := pos + widthOf (listTrees earlier)
    let here := start + widthOf last
    let curly := Tree.block head (treesOf body) close
    [.ruleset (selectorEvents pos earlier) (selectorEvent .rulesetStart start last)
      (outlinesAt (here + Text.width head.raw) body)
      (endEvent .rulesetEnd curly (here + curly.width))]

/-- The nodes of several phrases, the first at byte `pos`. -/
def outlinesAt (pos : Nat) : List Phrase → List Node
  | [] => []
  | p :: ps => p.outlineAt pos ++ outlinesAt (pos + widthOf p.trees) ps

end

/-- The outcome of a text without a fault. -/
def clean (es : List Event) : Outcome := ⟨es, none⟩

@[simp] theorem clean_nil : clean [] = .empty := rfl

@[simp] theorem clean_singleton (e : Event) : clean [e] = .one e := rfl

theorem clean_append (es es' : List Event) : clean (es ++ es') = clean es ++ clean es' := rfl

theorem clean_cons (e : Event) (es : List Event) : clean (e :: es) = .one e ++ clean es := rfl

/-! ## One phrase read -/

section

variable {ctx : Context} {pos : Nat} {t : Tree} {ts rest : List Tree} {s : String}

theorem eventsOf_nil (hctx : ctx ≠ .selectors) (pos : Nat) : eventsOf ctx pos [] = .empty :=
  (Reading.nil hctx).eventsOf_eq

theorem eventsOf_filler (hctx : ctx ≠ .selectors) (h : Derives ctx (filler t)) :
    eventsOf ctx pos (t :: rest) = eventsOf ctx (pos + t.width) rest :=
  (Reading.filler hctx h (reading_eventsOf _ _ rest)).eventsOf_eq

theorem guarded_of_sound {ts : List Tree} (h : Sound ts) (pos : Nat) (next : Outcome) :
    guarded pos ts next = next := by
  have hfault : ∀ pos, firstFault pos ts = none := by
    induction ts with
    | nil => intro pos; rfl
    | cons t ts ih =>
      intro pos
      have ht := h t List.mem_cons_self
      rw [firstFault]
      split
      · next s hs => exact absurd hs (ht s).1
      · next s hs => exact absurd hs (ht s).2
      · exact ih (fun u hu => h u (List.mem_cons_of_mem t hu)) _
  simp [guarded, hfault]

theorem IsSelector.components_ne_nil {selector : List Tree} (h : IsSelector selector) :
    components selector ≠ [] := by
  obtain ⟨t, ht, hgap⟩ := h.component
  have hne : ∀ started gap, componentsAfter started gap selector ≠ [] := by
    clear h
    induction selector with
    | nil => simp at ht
    | cons u selector ih =>
      intro started gap
      rw [componentsAfter]
      rcases List.mem_cons.1 ht with rfl | ht
      · simp only [isGap, Bool.or_eq_false_iff] at hgap
        simp only [hgap, Bool.false_eq_true, if_false]
        split <;> simp
      · split
        · exact ih ht _ _
        · split
          · exact ih ht _ _
          · split <;> simp
  exact hne false false

end

/-! ## Phrases that obey the grammar are read -/

/-- Trees before which a phrase stops: a value goes on to a semicolon, and a statement without one
to the end of the block. -/
def StopsBefore : Phrase → List Tree → Prop
  | declaration .., ts => ∀ t ∈ ts.head?, isSemicolon t
  | statement _ _ none, ts => ts = []
  | _, _ => True

theorem stopsBefore_of_mayPrecede {p : Phrase} {ps : List Phrase} (h : p.MayPrecede ps) :
    p.StopsBefore (treesOf ps) := by
  cases p with
  | declaration name gap colon value =>
    rcases h with rfl | ⟨t, rest, rfl, ht⟩
    · simp [StopsBefore]
    · simpa [StopsBefore, trees] using ht
  | statement keyword prelude stop =>
    cases stop with
    | none =>
      obtain rfl : ps = [] := h
      exact treesOf_nil
    | some t => trivial
  | _ => trivial

/-- What is read of selectors that obey the grammar. -/
theorem eventsOf_list {earlier : List (List Tree × Tree)}
    (hselectors : ∀ s ∈ earlier, IsSelector s.1) (hcommas : ∀ s ∈ earlier, isComma s.2 = true)
    (pos : Nat) (rest : List Tree) :
    eventsOf .selectors pos (listTrees earlier ++ rest) =
      clean (selectorEvents pos earlier)
        ++ eventsOf .selectors (pos + widthOf (listTrees earlier)) rest := by
  induction earlier generalizing pos with
  | nil => exact (Outcome.empty_append _).symm
  | cons s earlier ih =>
    have hs := hselectors s List.mem_cons_self
    have hcomma := hcommas s List.mem_cons_self
    have ih' := ih (fun x hx => hselectors x (List.mem_cons_of_mem s hx))
      (fun x hx => hcommas x (List.mem_cons_of_mem s hx)) (pos + widthOf s.1 + s.2.width)
    have hread : eventsOf .selectors pos (s.1 ++ s.2 :: (listTrees earlier ++ rest)) = _ :=
      (Reading.selector hs.unended hcomma hs.components_ne_nil
        (reading_eventsOf _ _ _)).eventsOf_eq
    rw [listTrees_cons, List.append_assoc, List.cons_append, hread, guarded_of_sound hs.sound, ih']
    simp [selectorEvents, clean_cons, Outcome.append_assoc, widthOf, Tree.width, Nat.add_assoc]

mutual

/-- A phrase that obeys the grammar is read as its events, and reading goes on after it. -/
theorem eventsOf_trees {ctx : Context} (hctx : ctx ≠ .selectors) : ∀ {p : Phrase}, Derives ctx p →
    ∀ (pos : Nat) {rest : List Tree}, p.StopsBefore rest →
      eventsOf ctx pos (p.trees ++ rest) =
        clean (Node.eventsIn (p.outlineAt pos)) ++ eventsOf ctx (pos + widthOf p.trees) rest
  | filler t, h, pos, rest, _ => by
    simpa [trees, outlineAt, widthOf, Tree.width] using eventsOf_filler hctx h
  | comment t, .comment token, pos, rest, _ => by
    simpa [trees, outlineAt, widthOf, Tree.width] using
      (Reading.comment hctx token (reading_eventsOf _ (pos + t.width) rest)).eventsOf_eq
  | declaration name gap colon value, .declaration hname hgap hcolon hsound hvalue, pos, rest,
      hrest => by
    have h : eventsOf .declarations pos (name :: (gap ++ colon :: (value ++ rest))) = _ :=
      (Reading.declaration hname hgap hcolon hvalue hrest (reading_eventsOf _ _ rest)).eventsOf_eq
    rw [guarded_of_sound hsound] at h
    simpa [trees, outlineAt, widthOf, Tree.width, Nat.add_assoc] using h
  | statement keyword prelude none, .statement hkeyword hsound hprelude _, pos, rest, hrest => by
    obtain rfl : rest = [] := hrest
    have h : eventsOf ctx pos (keyword :: prelude) = _ :=
      (Reading.lastStatement hctx hkeyword hprelude).eventsOf_eq
    rw [guarded_of_sound hsound] at h
    simpa [trees, outlineAt, eventsOf_nil hctx, widthOf, Tree.width, Nat.add_assoc] using h
  | statement keyword prelude (some t), .statement hkeyword hsound hprelude hstop, pos, rest,
      _ => by
    have h : eventsOf ctx pos (keyword :: (prelude ++ t :: rest)) = _ :=
      (Reading.statement hctx hkeyword hprelude (hstop t rfl)
        (reading_eventsOf _ _ rest)).eventsOf_eq
    rw [guarded_of_sound hsound] at h
    simpa [trees, outlineAt, widthOf, Tree.width, Nat.add_assoc] using h
  | block keyword prelude head body close, .block hkeyword hsound hprelude hcurly hbody hjoin, pos,
      rest, _ => by
    have hne := Context.ofAtRule_ne_selectors keyword.text
    have ht : isCurly (.block head (treesOf body) close) = true := by simp [isCurly, hcurly]
    have h : eventsOf ctx pos
        (keyword :: (prelude ++ .block head (treesOf body) close :: rest)) = _ :=
      (Reading.block hctx hkeyword hprelude ht (reading_eventsOf _ _ _)
        (reading_eventsOf _ _ rest)).eventsOf_eq
    have hinner := eventsOf_treesOf hne hbody hjoin
      (pos + keyword.width + widthOf prelude + Text.width head.raw)
    rw [guarded_of_sound hsound, Tree.headWidth, Tree.inside, hinner] at h
    simpa [trees, outlineAt, clean_cons, clean_append, Outcome.append_assoc, widthOf, Tree.width,
      Nat.add_assoc] using h
  | ruleset earlier last head body close,
      .ruleset hearlier hcommas hlast hbegins hcurly hbody hjoin, pos, rest, _ => by
    have ht : isCurly (.block head (treesOf body) close) = true := by simp [isCurly, hcurly]
    have h : eventsOf .selectors (pos + widthOf (listTrees earlier))
        (last ++ .block head (treesOf body) close :: rest) = _ :=
      (Reading.ruleset hlast.unended ht hlast.components_ne_nil (reading_eventsOf _ _ _)
        (reading_eventsOf _ _ rest)).eventsOf_eq
    have hinner := eventsOf_treesOf (by simp) hbody hjoin
      (pos + widthOf (listTrees earlier) + widthOf last + Text.width head.raw)
    rw [guarded_of_sound hlast.sound, Tree.headWidth, Tree.inside, hinner] at h
    have hlist := eventsOf_list hearlier hcommas pos
      (last ++ .block head (treesOf body) close :: rest)
    rw [h] at hlist
    obtain ⟨t, more, hcons⟩ : ∃ t more, listTrees earlier ++ last = t :: more := by
      obtain ⟨t, ht, -⟩ := hlast.component
      exact List.exists_cons_of_ne_nil fun hnil => by simp_all
    have hrules :
        eventsOf .rules pos (t :: (more ++ .block head (treesOf body) close :: rest)) = _ :=
      (Reading.rule (hbegins t (by simp [hcons])) (reading_eventsOf _ _ _)).eventsOf_eq
    rw [← List.cons_append, ← hcons, List.append_assoc, hlist] at hrules
    simpa [trees, outlineAt, clean_cons, clean_append, Outcome.append_assoc, widthOf, Tree.width,
      Nat.add_assoc] using hrules

theorem eventsOf_treesOf {ctx : Context} (hctx : ctx ≠ .selectors) : ∀ {ps : List Phrase},
    (∀ p ∈ ps, Derives ctx p) → Joined ps → ∀ pos : Nat,
      eventsOf ctx pos (treesOf ps) = clean (Node.eventsIn (outlinesAt pos ps))
  | [], _, _, pos => by
    simp [outlinesAt, eventsOf_nil hctx]
  | p :: ps, h, hjoined, pos => by
    have hp := eventsOf_trees hctx (h p List.mem_cons_self) pos
      (stopsBefore_of_mayPrecede hjoined.1)
    have hps := eventsOf_treesOf hctx (fun q hq => h q (List.mem_cons_of_mem p hq)) hjoined.2
      (pos + widthOf p.trees)
    rw [treesOf_cons, hp, hps, ← clean_append, outlinesAt, Node.eventsIn_append]

end

theorem trees_ne_nil (p : Phrase) : p.trees ≠ [] := by
  cases p <;> simp [trees]

theorem StopsBefore.append {p : Phrase} {ts : List Tree} (h : p.StopsBefore ts) (hne : ts ≠ [])
    (rest : List Tree) : p.StopsBefore (ts ++ rest) := by
  obtain ⟨t, more, rfl⟩ := List.exists_cons_of_ne_nil hne
  cases p with
  | statement _ _ stop =>
    cases stop with
    | none => exact absurd h (List.cons_ne_nil t more)
    | some u => trivial
  | _ => exact h

/-- Phrases are read before other trees as they are read alone, if the last of them stops there. -/
theorem eventsOf_treesOf_append {ctx : Context} (hctx : ctx ≠ .selectors) {ps : List Phrase}
    (h : ∀ p ∈ ps, Derives ctx p) (hjoined : Joined ps) {rest : List Tree}
    (hrest : ∀ p ∈ ps.getLast?, p.StopsBefore rest) (pos : Nat) :
    eventsOf ctx pos (treesOf ps ++ rest) =
      clean (Node.eventsIn (outlinesAt pos ps)) ++ eventsOf ctx (pos + widthOf (treesOf ps)) rest := by
  induction ps generalizing pos with
  | nil => simp [outlinesAt]
  | cons p ps ih =>
    have hstops : p.StopsBefore (treesOf ps ++ rest) := by
      cases ps with
      | nil => simpa using hrest p rfl
      | cons q ps =>
        refine (stopsBefore_of_mayPrecede hjoined.1).append ?_ rest
        rw [treesOf_cons]
        exact List.append_ne_nil_of_left_ne_nil q.trees_ne_nil _
    have hlast : ∀ q ∈ ps.getLast?, q.StopsBefore rest := by
      intro q hq
      cases ps with
      | nil => simp at hq
      | cons r ps => exact hrest q (by rwa [List.getLast?_cons_cons])
    have ih := ih (fun q hq => h q (List.mem_cons_of_mem p hq)) hjoined.2 hlast
      (pos + widthOf p.trees)
    rw [treesOf_cons, List.append_assoc, eventsOf_trees hctx (h p List.mem_cons_self) pos hstops, ih,
      outlinesAt, Node.eventsIn_append, clean_append, Outcome.append_assoc, Tree.widthOf_append,
      Nat.add_assoc]

/-! ## What is read without a fault obeys the grammar -/

/-- The trees are those of phrases that obey the grammar in the context. -/
structure Parses (ctx : Context) (ts : List Tree) (ps : List Phrase) : Prop where
  derives : ∀ p ∈ ps, Derives ctx p
  joined : Joined ps
  trees_eq : treesOf ps = ts

/-- A rule, of which selectors may have been read before, and the phrases after it. Nothing is said
of the tree that the rule begins with. -/
structure ParsesRule (ts : List Tree) (earlier : List (List Tree × Tree)) (last : List Tree)
    (head : Lexeme) (body : List Phrase) (close : Option Lexeme) (ps : List Phrase) : Prop where
  earlier_selectors : ∀ s ∈ earlier, IsSelector s.1
  commas : ∀ s ∈ earlier, isComma s.2 = true
  last_selector : IsSelector last
  curly : head.token = .opening .curly
  body_derives : ∀ p ∈ body, Derives .declarations p
  body_joined : Joined body
  derives : ∀ p ∈ ps, Derives .rules p
  joined : Joined ps
  trees_eq : listTrees earlier ++ (last ++ .block head (treesOf body) close :: treesOf ps) = ts

/-- The trees obey the grammar in the context. -/
structure Derivable (ctx : Context) (ts : List Tree) : Prop where
  phrases : ctx ≠ .selectors → ∃ ps, Parses ctx ts ps
  rule : ctx = .selectors → ∃ earlier last head body close ps,
    ParsesRule ts earlier last head body close ps

section

variable {ctx : Context} {pos : Nat} {t : Tree} {ts rest : List Tree} {next : Outcome}

theorem derivable_iff (hctx : ctx ≠ .selectors) : Derivable ctx ts ↔ ∃ ps, Parses ctx ts ps :=
  ⟨fun h => h.phrases hctx, fun h => ⟨fun _ => h, fun heq => absurd heq hctx⟩⟩

theorem derivable_selectors_iff : Derivable .selectors ts ↔
    ∃ earlier last head body close ps, ParsesRule ts earlier last head body close ps :=
  ⟨fun h => h.rule rfl, fun h => ⟨fun hne => absurd rfl hne, fun _ => h⟩⟩

theorem derivable_nil (hctx : ctx ≠ .selectors) : Derivable ctx [] :=
  (derivable_iff hctx).2 ⟨[], by simp, trivial, treesOf_nil⟩

/-- One phrase more before trees that obey the grammar. -/
theorem derivable_cons (hctx : ctx ≠ .selectors) {p : Phrase} (hp : Derives ctx p)
    (hprecede : ∀ ps, Parses ctx ts ps → p.MayPrecede ps) (h : Derivable ctx ts) :
    Derivable ctx (p.trees ++ ts) := by
  obtain ⟨ps, hps⟩ := (derivable_iff hctx).1 h
  refine (derivable_iff hctx).2 ⟨p :: ps, ?_, ⟨hprecede ps hps, hps.joined⟩, ?_⟩
  · intro q hq
    rcases List.mem_cons.1 hq with rfl | hq
    · exact hp
    · exact hps.derives q hq
  · rw [treesOf_cons, hps.trees_eq]

theorem derivable_filler (hctx : ctx ≠ .selectors) (hp : Derives ctx (filler t))
    (h : Derivable ctx rest) : Derivable ctx (t :: rest) := by
  simpa [trees] using derivable_cons hctx hp (fun _ _ => trivial) h

/-- Phrases are only written with no trees if there are none. -/
theorem Parses.eq_nil {ps : List Phrase} (h : Parses ctx [] ps) : ps = [] := by
  cases ps with
  | nil => rfl
  | cons p ps =>
    exact absurd (List.append_eq_nil_iff.1 ((treesOf_cons p ps).symm.trans h.trees_eq)).1
      p.trees_ne_nil

/-- Phrases that begin with a semicolon begin with it as filling. -/
theorem Parses.filler_of_semicolon {ps : List Phrase} (h : Parses ctx (t :: rest) ps)
    (ht : isSemicolon t = true) : ∃ qs, ps = filler t :: qs := by
  have htoken : t.token = .semicolon := by
    cases t with
    | leaf l => simpa [isSemicolon, Tree.token] using ht
    | block => simp [isSemicolon] at ht
  cases ps with
  | nil => simpa using h.trees_eq
  | cons p ps =>
    have htrees := h.trees_eq
    have hp := h.derives p List.mem_cons_self
    rw [treesOf_cons] at htrees
    cases hp with
    | white | semicolon | mark => exact ⟨ps, by simp_all [trees]⟩
    | comment | declaration | statement | block => simp_all [trees]
    | @ruleset earlier last _ _ _ _ _ hlast hbegins =>
      obtain ⟨u, more, hcons⟩ : ∃ u more, listTrees earlier ++ last = u :: more := by
        obtain ⟨u, hu, -⟩ := hlast.component
        exact List.exists_cons_of_ne_nil fun hnil => by simp_all
      have hu := hbegins u (by simp [hcons])
      rw [trees, ← List.append_assoc, hcons] at htrees
      obtain rfl : u = t := by simp_all
      simp [beginsRule, htoken] at hu

theorem sound_of_firstFault (h : firstFault pos ts = none) : Sound ts := by
  induction ts generalizing pos with
  | nil => simp [Sound]
  | cons t ts ih =>
    rw [firstFault] at h
    split at h
    · simp at h
    · simp at h
    · next hstring haddress =>
      intro u hu s
      rcases List.mem_cons.1 hu with rfl | hu
      · exact ⟨hstring s, haddress s⟩
      · exact ih h u hu s

theorem sound_of_guarded (h : (guarded pos ts next).error = none) :
    Sound ts ∧ next.error = none := by
  unfold guarded at h
  cases hfault : firstFault pos ts with
  | some e => simp [hfault] at h
  | none =>
    rw [hfault] at h
    exact ⟨sound_of_firstFault hfault, h⟩

/-- Nothing is read of faulty components. -/
theorem sound_of_mem_guarded {e : Event} (h : e ∈ (guarded pos ts next).events) :
    Sound ts ∧ e ∈ next.events := by
  unfold guarded at h
  cases hfault : firstFault pos ts with
  | some e => simp [hfault] at h
  | none =>
    rw [hfault] at h
    exact ⟨sound_of_firstFault hfault, h⟩

/-- White space and comments alone have no component values. -/
theorem componentsAfter_gap {us : List Tree} (h : ∀ t ∈ us, isGap t = true) (gap : Bool) :
    componentsAfter false gap us = [] := by
  induction us generalizing gap with
  | nil => rfl
  | cons u us ih =>
    have hu := h u List.mem_cons_self
    have ih' := fun gap => ih (fun t ht => h t (List.mem_cons_of_mem u ht)) gap
    simp only [isGap, Bool.or_eq_true] at hu
    rw [componentsAfter]
    split
    · exact ih' _
    · next hcomment => rw [if_pos (hu.resolve_right hcomment), ih']

theorem isSelector_of_components {selector : List Tree} (hsound : Sound selector)
    (hunended : ∀ t ∈ selector, endsSelector t = false) (h : components selector ≠ []) :
    IsSelector selector where
  sound := hsound
  unended := hunended
  component := by
    refine Decidable.byContradiction fun hgap => h ?_
    have hall : ∀ t ∈ selector, isGap t = true := fun t ht =>
      eq_true_of_ne_false fun hfalse => hgap ⟨t, ht, hfalse⟩
    exact componentsAfter_gap hall false

/-- A selector more before a rule. -/
theorem derivable_comma {selector : List Tree} (hselector : IsSelector selector)
    (ht : isComma t = true) (h : Derivable .selectors rest) :
    Derivable .selectors (selector ++ t :: rest) := by
  obtain ⟨earlier, last, head, body, close, ps, hrule⟩ := derivable_selectors_iff.1 h
  refine derivable_selectors_iff.2 ⟨(selector, t) :: earlier, last, head, body, close, ps,
    { hrule with earlier_selectors := ?_, commas := ?_, trees_eq := ?_ }⟩
  · exact List.forall_mem_cons.2 ⟨hselector, hrule.earlier_selectors⟩
  · exact List.forall_mem_cons.2 ⟨ht, hrule.commas⟩
  · simp [← hrule.trees_eq]

theorem derivable_curly {selector body : List Tree} {head : Lexeme} {close : Option Lexeme}
    (hselector : IsSelector selector) (hcurly : head.token = .opening .curly)
    (hbody : Derivable .declarations body) (h : Derivable .rules rest) :
    Derivable .selectors (selector ++ .block head body close :: rest) := by
  obtain ⟨qs, hqs⟩ := (derivable_iff (by simp)).1 hbody
  obtain ⟨ps, hps⟩ := (derivable_iff (by simp)).1 h
  exact derivable_selectors_iff.2 ⟨[], selector, head, qs, close, ps, by simp, by simp, hselector,
    hcurly, hqs.derives, hqs.joined, hps.derives, hps.joined,
    by simp [hqs.trees_eq, hps.trees_eq]⟩

/-- A rule whose first tree may begin a rule is a phrase. -/
theorem derivable_rules_of_selectors (ht : beginsRule t = true)
    (h : Derivable .selectors (t :: rest)) : Derivable .rules (t :: rest) := by
  obtain ⟨earlier, last, head, body, close, ps, hrule⟩ := derivable_selectors_iff.1 h
  have hbegins : ∀ u ∈ (listTrees earlier ++ last).head?, beginsRule u = true := by
    obtain ⟨u, hu, -⟩ := hrule.last_selector.component
    obtain ⟨v, more, hcons⟩ : ∃ v more, listTrees earlier ++ last = v :: more :=
      List.exists_cons_of_ne_nil fun hnil => by simp_all
    have htrees := hrule.trees_eq
    rw [← List.append_assoc, hcons] at htrees
    obtain rfl : v = t := by simp_all
    simpa [hcons] using ht
  have hp : Derives .rules (ruleset earlier last head body close) :=
    .ruleset hrule.earlier_selectors hrule.commas hrule.last_selector hbegins hrule.curly
      hrule.body_derives hrule.body_joined
  have hrules : Derivable .rules (treesOf ps) :=
    (derivable_iff (by simp)).2 ⟨ps, hrule.derives, hrule.joined, rfl⟩
  rw [← hrule.trees_eq]
  simpa [trees] using derivable_cons (by simp) hp (fun _ _ => trivial) hrules

theorem derivable_statement_end (hctx : ctx ≠ .selectors) {s : String}
    (ht : t.token = .atKeyword s) {prelude : List Tree} (hsound : Sound prelude)
    (hprelude : ∀ u ∈ prelude, endsPrelude u = false) : Derivable ctx (t :: prelude) := by
  have hp : Derives ctx (statement t prelude none) := .statement ht hsound hprelude (by simp)
  have hprecede : ∀ ps, Parses ctx [] ps → (statement t prelude none).MayPrecede ps := by
    intro ps hps
    exact hps.eq_nil
  simpa [trees] using derivable_cons hctx hp hprecede (derivable_nil hctx)

theorem derivable_statement (hctx : ctx ≠ .selectors) {s : String} (ht : t.token = .atKeyword s)
    {prelude : List Tree} (hsound : Sound prelude)
    (hprelude : ∀ u ∈ prelude, endsPrelude u = false) {stop : Tree}
    (hstop : isSemicolon stop = true) (h : Derivable ctx rest) :
    Derivable ctx (t :: (prelude ++ stop :: rest)) := by
  have hp : Derives ctx (statement t prelude (some stop)) :=
    .statement ht hsound hprelude (by simpa using hstop)
  simpa [trees] using derivable_cons hctx hp (fun _ _ => trivial) h

theorem derivable_block (hctx : ctx ≠ .selectors) {s : String} (ht : t.token = .atKeyword s)
    {prelude : List Tree} (hsound : Sound prelude)
    (hprelude : ∀ u ∈ prelude, endsPrelude u = false) {head : Lexeme} {body : List Tree}
    {close : Option Lexeme} (hhead : head.token = .opening .curly)
    (hbody : Derivable (.ofAtRule t.text) body) (h : Derivable ctx rest) :
    Derivable ctx (t :: (prelude ++ .block head body close :: rest)) := by
  obtain ⟨qs, hqs⟩ := (derivable_iff (Context.ofAtRule_ne_selectors t.text)).1 hbody
  have hp : Derives ctx (block t prelude head qs close) :=
    .block ht hsound hprelude hhead hqs.derives hqs.joined
  simpa [trees, hqs.trees_eq] using derivable_cons hctx hp (fun _ _ => trivial) h

theorem derivable_declaration {name colon : Tree} {gap value : List Tree} {s : String}
    (hname : name.token = .ident s) (hgap : ∀ t ∈ gap, isGap t = true)
    (hcolon : isColon colon = true) (hsound : Sound value)
    (hvalue : ∀ t ∈ value, isSemicolon t = false) (hends : ∀ t ∈ rest.head?, isSemicolon t = true)
    (h : Derivable .declarations rest) :
    Derivable .declarations (name :: (gap ++ colon :: (value ++ rest))) := by
  have hp : Derives .declarations (declaration name gap colon value) :=
    .declaration hname hgap hcolon hsound hvalue
  have hprecede : ∀ ps, Parses .declarations rest ps →
      (declaration name gap colon value).MayPrecede ps := by
    intro ps hps
    cases rest with
    | nil => exact .inl hps.eq_nil
    | cons t rest =>
      have ht : isSemicolon t = true := hends t rfl
      obtain ⟨qs, rfl⟩ := hps.filler_of_semicolon ht
      exact .inr ⟨t, qs, rfl, ht⟩
  simpa [trees] using derivable_cons (by simp) hp hprecede h

end

/-- What is read in a context without a fault obeys the grammar there. -/
theorem derivable_of_reading {ctx : Context} {pos : Nat} {ts : List Tree} {p : Outcome}
    (h : Reading ctx pos ts p) (herror : p.error = none) : Derivable ctx ts := by
  induction h with
  | nil inner => exact derivable_nil inner
  | filler inner derives _ ih => exact derivable_filler inner derives (ih herror)
  | comment inner token _ ih =>
    obtain ⟨-, hrest⟩ := Outcome.error_append_eq_none.1 herror
    simpa [trees] using derivable_cons inner (.comment token) (fun _ _ => trivial) (ih hrest)
  | rule begins _ ih => exact derivable_rules_of_selectors begins (ih herror)
  | selector unended comma values _ ih =>
    obtain ⟨hsound, herror⟩ := sound_of_guarded herror
    obtain ⟨-, hrest⟩ := Outcome.error_append_eq_none.1 herror
    exact derivable_comma (isSelector_of_components hsound unended values) comma (ih hrest)
  | ruleset unended curly values _ _ ihInside ih =>
    obtain ⟨hsound, herror⟩ := sound_of_guarded herror
    simp only [Outcome.error_append_eq_none] at herror
    obtain ⟨⟨⟨-, hbody⟩, -⟩, hrest⟩ := herror
    have hbody := ihInside hbody
    obtain ⟨head, body, close, rfl, hhead⟩ := Tree.exists_of_isCurly curly
    exact derivable_curly (isSelector_of_components hsound unended values) hhead hbody (ih hrest)
  | lastStatement inner token unended =>
    obtain ⟨hsound, -⟩ := sound_of_guarded herror
    exact derivable_statement_end inner token hsound unended
  | statement inner token unended semicolon _ ih =>
    obtain ⟨hsound, herror⟩ := sound_of_guarded herror
    obtain ⟨-, hrest⟩ := Outcome.error_append_eq_none.1 herror
    exact derivable_statement inner token hsound unended semicolon (ih hrest)
  | block inner token unended curly _ _ ihInside ih =>
    obtain ⟨hsound, herror⟩ := sound_of_guarded herror
    simp only [Outcome.error_append_eq_none] at herror
    obtain ⟨⟨⟨-, hbody⟩, -⟩, hrest⟩ := herror
    have hbody := ihInside hbody
    obtain ⟨head, body, close, rfl, hhead⟩ := Tree.exists_of_isCurly curly
    exact derivable_block inner token hsound unended hhead hbody (ih hrest)
  | declaration token blank mark unended ended _ ih =>
    obtain ⟨hsound, herror⟩ := sound_of_guarded herror
    obtain ⟨-, hrest⟩ := Outcome.error_append_eq_none.1 herror
    exact derivable_declaration token blank mark hsound unended ended (ih hrest)
  | endInSelector | emptySelector | inSelector =>
    obtain ⟨-, herror⟩ := sound_of_guarded herror
    simp [Outcome.fail] at herror
  | missingColon | inRules | inDeclarations => simp [Outcome.fail] at herror

theorem derivable_of_error {ctx : Context} {pos : Nat} {ts : List Tree}
    (h : (eventsOf ctx pos ts).error = none) : Derivable ctx ts :=
  derivable_of_reading (reading_eventsOf ctx pos ts) h

/-! ## The nodes of phrases -/

theorem kind_selectorEvents {pos : Nat} {earlier : List (List Tree × Tree)} {e : Event}
    (h : e ∈ selectorEvents pos earlier) : e.kind = .selector := by
  induction earlier generalizing pos with
  | nil => simp [selectorEvents] at h
  | cons s earlier ih =>
    rcases List.mem_cons.1 h with rfl | h
    · rfl
    · exact ih h

mutual

/-- The nodes of a phrase that obeys the grammar fit where it stands. -/
theorem fits_outlineAt {ctx : Context} : ∀ {p : Phrase}, Derives ctx p → ∀ pos : Nat,
    ∀ n ∈ p.outlineAt pos, Node.Fits ctx n
  | filler t, _, pos, n, hn => by simp [outlineAt] at hn
  | comment t, _, pos, n, hn => by
    obtain rfl : n = .comment (commentEvent pos t) := by simpa [outlineAt] using hn
    exact .comment rfl
  | declaration name gap colon value, .declaration .., pos, n, hn => by
    obtain rfl := List.mem_singleton.1 (by simpa only [outlineAt] using hn)
    exact .declaration (declarationEvent_kind _ _ _)
  | statement keyword prelude stop, _, pos, n, hn => by
    obtain rfl := List.mem_singleton.1 (by simpa only [outlineAt] using hn)
    exact .statement rfl
  | block keyword prelude head body close, .block _ _ _ _ hbody _, pos, n, hn => by
    obtain rfl := List.mem_singleton.1 (by simpa only [outlineAt] using hn)
    exact .block rfl rfl (fits_outlinesAt hbody _)
  | ruleset earlier last head body close, .ruleset _ _ _ _ _ hbody _, pos, n, hn => by
    obtain rfl := List.mem_singleton.1 (by simpa only [outlineAt] using hn)
    exact .ruleset (fun e he => kind_selectorEvents he) rfl rfl (fits_outlinesAt hbody _)

theorem fits_outlinesAt {ctx : Context} : ∀ {ps : List Phrase}, (∀ p ∈ ps, Derives ctx p) →
    ∀ pos : Nat, ∀ n ∈ outlinesAt pos ps, Node.Fits ctx n
  | [], _, pos, n, hn => by simp [outlinesAt] at hn
  | p :: ps, h, pos, n, hn => by
    rw [outlinesAt, List.mem_append] at hn
    rcases hn with hn | hn
    · exact fits_outlineAt (h p List.mem_cons_self) pos n hn
    · exact fits_outlinesAt (fun q hq => h q (List.mem_cons_of_mem p hq)) _ n hn

end

/-- The phrases of a stylesheet. -/
abbrev Spells (source : String) (ps : List Phrase) : Prop :=
  Parses .rules (Tree.ofText source.toList) ps

theorem Parses.eventsOf_eq {ctx : Context} (hctx : ctx ≠ .selectors) {ts : List Tree}
    {ps : List Phrase} (h : Parses ctx ts ps) (pos : Nat) :
    eventsOf ctx pos ts = clean (Node.eventsIn (outlinesAt pos ps)) := by
  rw [← h.trees_eq, eventsOf_treesOf hctx h.derives h.joined]

/-- The outline of a stylesheet is that of its phrases. -/
theorem Spells.outline_eq {source : String} {ps : List Phrase} (h : Spells source ps) :
    outline source = outlinesAt 0 ps := by
  rw [outline, events, Parses.eventsOf_eq (by simp) h, clean,
    Node.nest_eventsIn (fits_outlinesAt h.derives 0), Option.getD_some]

/-- A stylesheet has no fault just when its trees are those of phrases that obey the grammar. Its
events are then those of the phrases, every block between its two ends. -/
theorem accepts_iff_derives (source : String) :
    ((events source).error = none ↔ ∃ ps, Spells source ps) ∧
      ∀ ps, Spells source ps →
        (events source).events = Node.eventsIn (outlinesAt 0 ps) ∧
          outline source = outlinesAt 0 ps ∧ ∀ n ∈ outlinesAt 0 ps, Node.Fits .rules n := by
  refine ⟨⟨fun h => ?_, ?_⟩, fun ps h => ⟨?_, h.outline_eq, fits_outlinesAt h.derives 0⟩⟩
  · exact (derivable_iff (by simp)).1 (derivable_of_error h)
  · rintro ⟨ps, h⟩
    rw [events, Parses.eventsOf_eq (by simp) h, clean]
  · rw [events, Parses.eventsOf_eq (by simp) h, clean]

end Phrase
end StyleSieve.Css
