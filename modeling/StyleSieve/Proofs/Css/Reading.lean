import StyleSieve.Proofs.Css.Phrase

/-!
# How a stylesheet is read

Reading takes up the trees of one phrase, or passes a tree that adds nothing, and goes on behind it;
or it ends with a fault. `Reading` has one case for each of these, with the trees of the phrase
written out, so that what holds of all that is read is shown case by case (`reading_eventsOf`). The
components of a phrase may be faulty in themselves, and then nothing is read of the phrase or of
what follows it (`guarded`); the cases say nothing about which ones are.
-/

namespace StyleSieve.Css

open Phrase (Derives beginsRule)
open StyleSieve.Css.Tree (isSemicolon isColon isComma isCurly isGap endsSelector endsPrelude
  widthOf)

/-- The outcome is what is read, in the context, of trees that begin at a byte. -/
inductive Reading : Context → Nat → List Tree → Outcome → Prop
  | nil {ctx : Context} {pos : Nat} (inner : ctx ≠ .selectors) : Reading ctx pos [] .empty
  | filler {ctx : Context} {pos : Nat} {t : Tree} {ts : List Tree} {p : Outcome}
      (inner : ctx ≠ .selectors) (derives : Derives ctx (.filler t))
      (later : Reading ctx (pos + t.width) ts p) : Reading ctx pos (t :: ts) p
  | comment {ctx : Context} {pos : Nat} {t : Tree} {ts : List Tree} {p : Outcome} {s : String}
      (inner : ctx ≠ .selectors) (token : t.token = .comment s)
      (later : Reading ctx (pos + t.width) ts p) :
      Reading ctx pos (t :: ts) (.one (commentEvent pos t) ++ p)
  /-- A rule begins with a selector, of which nothing has been read yet. -/
  | rule {pos : Nat} {t : Tree} {ts : List Tree} {p : Outcome} (begins : beginsRule t = true)
      (later : Reading .selectors pos (t :: ts) p) : Reading .rules pos (t :: ts) p
  | selector {pos : Nat} {selector : List Tree} {t : Tree} {ts : List Tree} {p : Outcome}
      (unended : ∀ u ∈ selector, endsSelector u = false) (comma : isComma t = true)
      (values : components selector ≠ [])
      (later : Reading .selectors (pos + widthOf selector + t.width) ts p) :
      Reading .selectors pos (selector ++ t :: ts)
        (guarded pos selector <| .one (selectorEvent .selector pos selector) ++ p)
  | ruleset {pos : Nat} {selector : List Tree} {t : Tree} {ts : List Tree} {p q : Outcome}
      (unended : ∀ u ∈ selector, endsSelector u = false) (curly : isCurly t = true)
      (values : components selector ≠ [])
      (inside : Reading .declarations (pos + widthOf selector + t.headWidth) t.inside p)
      (later : Reading .rules (pos + widthOf selector + t.width) ts q) :
      Reading .selectors pos (selector ++ t :: ts)
        (guarded pos selector <|
          .one (selectorEvent .rulesetStart pos selector) ++ p
            ++ .one (endEvent .rulesetEnd t (pos + widthOf selector + t.width)) ++ q)
  | endInSelector {pos : Nat} {selector : List Tree}
      (unended : ∀ u ∈ selector, endsSelector u = false) :
      Reading .selectors pos selector
        (guarded pos selector <| .fail .endInSelector (pos + widthOf selector))
  | emptySelector {pos : Nat} {selector : List Tree} {t : Tree} {ts : List Tree}
      (unended : ∀ u ∈ selector, endsSelector u = false)
      (mark : isComma t = true ∨ isCurly t = true) (values : components selector = []) :
      Reading .selectors pos (selector ++ t :: ts)
        (guarded pos selector <| .fail .emptySelector (pos + widthOf selector))
  | inSelector {pos : Nat} {selector : List Tree} {t : Tree} {ts : List Tree}
      (unended : ∀ u ∈ selector, endsSelector u = false) (ends : endsSelector t = true)
      (comma : isComma t = false) (curly : isCurly t = false) :
      Reading .selectors pos (selector ++ t :: ts)
        (guarded pos selector <| .fail (.inSelector t.token) (pos + widthOf selector))
  /-- Nothing follows a prelude that goes on to the end of the block around it. -/
  | lastStatement {ctx : Context} {pos : Nat} {t : Tree} {prelude : List Tree} {s : String}
      (inner : ctx ≠ .selectors) (token : t.token = .atKeyword s)
      (unended : ∀ u ∈ prelude, endsPrelude u = false) :
      Reading ctx pos (t :: prelude)
        (guarded (pos + t.width) prelude <|
          .one ⟨.statement, t.text, components prelude, ⟨pos, pos + t.width + widthOf prelude⟩⟩)
  | statement {ctx : Context} {pos : Nat} {t stop : Tree} {prelude ts : List Tree} {p : Outcome}
      {s : String} (inner : ctx ≠ .selectors) (token : t.token = .atKeyword s)
      (unended : ∀ u ∈ prelude, endsPrelude u = false) (semicolon : isSemicolon stop = true)
      (later : Reading ctx (pos + t.width + widthOf prelude + stop.width) ts p) :
      Reading ctx pos (t :: (prelude ++ stop :: ts))
        (guarded (pos + t.width) prelude <|
          .one ⟨.statement, t.text, components prelude,
              ⟨pos, pos + t.width + widthOf prelude + stop.width⟩⟩ ++ p)
  | block {ctx : Context} {pos : Nat} {t u : Tree} {prelude ts : List Tree} {p q : Outcome}
      {s : String} (inner : ctx ≠ .selectors) (token : t.token = .atKeyword s)
      (unended : ∀ u ∈ prelude, endsPrelude u = false) (curly : isCurly u = true)
      (inside : Reading (.ofAtRule t.text) (pos + t.width + widthOf prelude + u.headWidth)
        u.inside p)
      (later : Reading ctx (pos + t.width + widthOf prelude + u.width) ts q) :
      Reading ctx pos (t :: (prelude ++ u :: ts))
        (guarded (pos + t.width) prelude <|
          .one ⟨.blockStart, t.text, components prelude, ⟨pos, pos + t.width + widthOf prelude⟩⟩
            ++ p ++ .one (endEvent .blockEnd u (pos + t.width + widthOf prelude + u.width)) ++ q)
  /-- The semicolon behind a value is left for what follows. -/
  | declaration {pos : Nat} {name colon : Tree} {gap value ts : List Tree} {p : Outcome}
      {s : String} (token : name.token = .ident s) (blank : ∀ u ∈ gap, isGap u = true)
      (mark : isColon colon = true) (unended : ∀ u ∈ value, isSemicolon u = false)
      (ended : ∀ u ∈ ts.head?, isSemicolon u = true)
      (later : Reading .declarations
        (pos + name.width + widthOf gap + colon.width + widthOf value) ts p) :
      Reading .declarations pos (name :: (gap ++ colon :: (value ++ ts)))
        (guarded (pos + name.width + widthOf gap + colon.width) value <|
          .one (declarationEvent name value
            ⟨pos, pos + name.width + widthOf gap + colon.width + widthOf value⟩) ++ p)
  | missingColon {pos : Nat} {name : Tree} {gap ts : List Tree} {s : String}
      (token : name.token = .ident s) (blank : ∀ u ∈ gap, isGap u = true)
      (other : ∀ u ∈ ts.head?, isGap u = false ∧ isColon u = false) :
      Reading .declarations pos (name :: (gap ++ ts))
        (.fail (.missingColon name.text (ts.head?.map Tree.token)) (pos + name.width + widthOf gap))
  | inRules {pos : Nat} {t : Tree} {ts : List Tree}
      (token : (∃ b, t.token = .closing b) ∨ (∃ s, t.token = .badString s) ∨
        ∃ s, t.token = .badUrl s) :
      Reading .rules pos (t :: ts) (.fail (.inRules t.token) pos)
  | inDeclarations {pos : Nat} {t : Tree} {ts : List Tree}
      (token : ∀ s, t.token ∉ [.whitespace s, .semicolon, .comment s, .atKeyword s, .ident s]) :
      Reading .declarations pos (t :: ts) (.fail (.inDeclarations t.token) pos)

/-! ## Trees and marks -/

namespace Tree

variable {t : Tree}

theorem exists_of_isCurly (h : isCurly t = true) :
    ∃ head body close, t = .block head body close ∧ head.token = .opening .curly := by
  cases t with
  | leaf l => simp [isCurly] at h
  | block head body close => exact ⟨head, body, close, rfl, by simpa [isCurly] using h⟩

theorem not_isGap_of_isColon (h : isColon t = true) : isGap t = false := by
  cases t with
  | leaf l => simp_all [isColon, isGap, Tree.token, Token.isWhitespace, Token.isComment]
  | block => simp [isColon] at h

theorem not_isComma_of_isCurly (h : isCurly t = true) : isComma t = false := by
  cases t with
  | leaf l => simp [isCurly] at h
  | block => rfl

theorem not_isCurly_of_isSemicolon (h : isSemicolon t = true) : isCurly t = false := by
  cases t with
  | leaf l => rfl
  | block => simp [isSemicolon] at h

/-- The part of some trees before the first with a property, and the rest. -/
theorem split_at (p : Tree → Bool) (ts : List Tree) :
    ts = ts.takeWhile (!p ·) ++ ts.dropWhile (!p ·) ∧ (∀ t ∈ ts.takeWhile (!p ·), p t = false) ∧
      ∀ t ∈ (ts.dropWhile (!p ·)).head?, p t = true := by
  refine ⟨List.takeWhile_append_dropWhile.symm, ?_, ?_⟩
  · intro t ht
    simpa using List.all_eq_true.1 (List.all_takeWhile (p := (!p ·)) (l := ts)) t ht
  · intro t ht
    have := List.head?_dropWhile_not (!p ·) ts
    simp_all

/-- A sequence of trees that go on and a rest that does not are told apart by going on. -/
theorem takeWhile_append_stop {p : Tree → Bool} {ts rest : List Tree}
    (h : ∀ t ∈ ts, p t = false) (hrest : ∀ t ∈ rest.head?, p t = true) :
    (ts ++ rest).takeWhile (!p ·) = ts ∧ (ts ++ rest).dropWhile (!p ·) = rest := by
  have h' : ∀ t ∈ ts, (!p t) = true := fun t ht => by simp [h t ht]
  rw [List.takeWhile_append_of_pos h', List.dropWhile_append_of_pos h']
  cases rest with
  | nil => simp
  | cons t rest => simp [hrest t rfl]

end Tree

/-- What the function reads is read. -/
theorem reading_eventsOf (ctx : Context) (pos : Nat) (ts : List Tree) :
    Reading ctx pos ts (eventsOf ctx pos ts) := by
  fun_induction eventsOf ctx pos ts
  case case1 => exact .nil (by simp)
  case case2 => exact .nil (by simp)
  case case3 pos ts selector here hselectors hdeclarations hrules =>
    obtain ⟨hsplit, hunended, hends⟩ := Tree.split_at endsSelector ts
    split
    · next hdrop =>
      rw [hdrop, List.append_nil] at hsplit
      rw [hsplit]
      exact .endInSelector hunended
    · next t rest hdrop =>
      rw [hdrop] at hsplit hends
      dsimp only
      rw [hsplit]
      split
      · next hmark =>
        split
        · next hempty =>
          exact .emptySelector hunended (by simpa using hmark) (List.isEmpty_iff.1 hempty)
        · next hvalues =>
          have hne : components selector ≠ [] := by simpa using hvalues
          split
          · next hcomma => exact .selector hunended hcomma hne (hselectors t rest hdrop)
          · next hcomma =>
            have hcurly : isCurly t = true := by simpa [hcomma] using hmark
            exact .ruleset hunended hcurly hne (hdeclarations t rest hdrop) (hrules t rest hdrop)
      · next hmark =>
        have hother : isComma t = false ∧ isCurly t = false := by simpa using hmark
        exact .inSelector hunended (hends t rfl) hother.1 hother.2
  case case4 htoken ih => exact .filler ‹_› (.white htoken) ih
  case case5 htoken ih => exact .filler ‹_› (.semicolon htoken) ih
  case case6 htoken ih => exact .comment ‹_› htoken ih
  case case7 pos ctx t ts hctx _ next _ htoken prelude values here hinside hrest =>
    obtain ⟨hsplit, hunended, hends⟩ := Tree.split_at endsPrelude ts
    split
    · next hdrop =>
      rw [hdrop, List.append_nil] at hsplit
      rw [hsplit]
      exact .lastStatement hctx htoken hunended
    · next u rest hdrop =>
      rw [hdrop] at hsplit hends
      dsimp only
      rw [hsplit]
      split
      · next hcurly =>
        exact .block hctx htoken hunended hcurly (hinside u rest hdrop) (hrest u rest hdrop)
      · next hcurly =>
        have hstop : isSemicolon u = true := by simpa [endsPrelude, hcurly] using hends u rfl
        exact .statement hctx htoken hunended hstop (hrest u rest hdrop)
  case case8 htoken ih => exact .filler (by simp) (.mark (.inl htoken)) ih
  case case9 htoken ih => exact .filler (by simp) (.mark (.inr htoken)) ih
  case case10 htoken => exact htoken ▸ .inRules (.inl ⟨_, htoken⟩)
  case case11 htoken => exact htoken ▸ .inRules (.inr (.inl ⟨_, htoken⟩))
  case case12 htoken => exact htoken ▸ .inRules (.inr (.inr ⟨_, htoken⟩))
  case case13 ih =>
    refine .rule ?_ ih
    grind [beginsRule]
  case case14 pos name ts _ next _ gap here hdrop _ _ _ _ _ htoken =>
    have hgap : ∀ u ∈ gap, isGap u = true := List.all_eq_true.1 List.all_takeWhile
    have hsplit : ts = gap ++ [] := by
      rw [← hdrop, List.takeWhile_append_dropWhile]
    rw [hsplit]
    exact .missingColon htoken hgap (by simp)
  case case15 pos name ts _ next _ gap here colon more hdrop _ _ hcolon value stop _ _ _ _ _ htoken
      ih =>
    obtain ⟨hsplit, hunended, hends⟩ := Tree.split_at isSemicolon more
    have hgap : ∀ u ∈ gap, isGap u = true := List.all_eq_true.1 List.all_takeWhile
    have htrees : ts = gap ++ colon :: (value ++ more.dropWhile (!isSemicolon ·)) := by
      rw [← hsplit, ← hdrop, List.takeWhile_append_dropWhile]
    rw [htrees]
    exact .declaration htoken hgap hcolon hunended hends ih
  case case16 pos name ts _ next _ gap here u more hdrop _ _ hcolon _ _ _ _ _ htoken =>
    have hgap : ∀ u ∈ gap, isGap u = true := List.all_eq_true.1 List.all_takeWhile
    have hother := List.head?_dropWhile_not isGap ts
    have hsplit : ts = gap ++ u :: more := by
      rw [← hdrop, List.takeWhile_append_dropWhile]
    rw [hdrop] at hother
    rw [hsplit]
    exact @Reading.missingColon pos name gap (u :: more) _ htoken hgap (by simp_all)
  case case17 ctx t ts hctx _ _ _ _ _ _ _ _ _ _ _ _ =>
    cases ctx with
    | declarations => exact .inDeclarations (by simp_all)
    | _ => contradiction

/-! ## The trees of a reading are read -/

section

variable {ctx : Context} {pos : Nat} {t : Tree} {ts us : List Tree} {p : Outcome} {s : String}

/-- What is read of a selector with the mark that it goes up to, if there is one. -/
theorem eventsOf_selectors (hts : ∀ u ∈ ts, endsSelector u = false)
    (hus : ∀ u ∈ us.head?, endsSelector u = true) :
    eventsOf .selectors pos (ts ++ us) = guarded pos ts (
      match us with
      | [] => .fail .endInSelector (pos + widthOf ts)
      | u :: us =>
        if isComma u || isCurly u then
          if (components ts).isEmpty then .fail .emptySelector (pos + widthOf ts)
          else if isComma u then
            .one (selectorEvent .selector pos ts)
              ++ eventsOf .selectors (pos + widthOf ts + u.width) us
          else
            .one (selectorEvent .rulesetStart pos ts)
              ++ eventsOf .declarations (pos + widthOf ts + u.headWidth) u.inside
              ++ .one (endEvent .rulesetEnd u (pos + widthOf ts + u.width))
              ++ eventsOf .rules (pos + widthOf ts + u.width) us
        else .fail (.inSelector u.token) (pos + widthOf ts)) := by
  obtain ⟨htake, hdrop⟩ := Tree.takeWhile_append_stop hts hus
  rw [eventsOf]
  simp only [htake]
  split
  · next hnil =>
    obtain rfl : us = [] := hdrop.symm.trans hnil
    rfl
  · next u more hcons =>
    obtain rfl : us = u :: more := hdrop.symm.trans hcons
    rfl

/-- What is read of an at-rule with the mark that its prelude goes up to, if there is one. -/
theorem eventsOf_atKeyword (hctx : ctx ≠ .selectors) (htoken : t.token = .atKeyword s)
    (hts : ∀ u ∈ ts, endsPrelude u = false) (hus : ∀ u ∈ us.head?, endsPrelude u = true) :
    eventsOf ctx pos (t :: (ts ++ us)) = guarded (pos + t.width) ts (
      match us with
      | [] => .one ⟨.statement, t.text, components ts, ⟨pos, pos + t.width + widthOf ts⟩⟩
      | u :: us =>
        if isCurly u then
          .one ⟨.blockStart, t.text, components ts, ⟨pos, pos + t.width + widthOf ts⟩⟩
            ++ eventsOf (.ofAtRule t.text) (pos + t.width + widthOf ts + u.headWidth) u.inside
            ++ .one (endEvent .blockEnd u (pos + t.width + widthOf ts + u.width))
            ++ eventsOf ctx (pos + t.width + widthOf ts + u.width) us
        else
          .one ⟨.statement, t.text, components ts,
              ⟨pos, pos + t.width + widthOf ts + u.width⟩⟩
            ++ eventsOf ctx (pos + t.width + widthOf ts + u.width) us) := by
  obtain ⟨htake, hdrop⟩ := Tree.takeWhile_append_stop hts hus
  rw [eventsOf]
  · simp only [htoken, htake]
    split
    · next hnil =>
      obtain rfl : us = [] := hdrop.symm.trans hnil
      rfl
    · next u more hcons =>
      obtain rfl : us = u :: more := hdrop.symm.trans hcons
      rfl
  · exact hctx

/-- What is read of a declaration up to what stands where its colon should be. -/
theorem eventsOf_ident (htoken : t.token = .ident s) (hts : ∀ u ∈ ts, isGap u = true)
    (hus : ∀ u ∈ us.head?, isGap u = false) :
    eventsOf .declarations pos (t :: (ts ++ us)) =
      match us with
      | [] => .fail (.missingColon t.text none) (pos + t.width + widthOf ts)
      | u :: us =>
        if isColon u then
          guarded (pos + t.width + widthOf ts + u.width) (us.takeWhile (!·.isSemicolon)) <|
            .one (declarationEvent t (us.takeWhile (!·.isSemicolon))
                ⟨pos, pos + t.width + widthOf ts + u.width
                  + widthOf (us.takeWhile (!·.isSemicolon))⟩)
              ++ eventsOf .declarations (pos + t.width + widthOf ts + u.width
                  + widthOf (us.takeWhile (!·.isSemicolon))) (us.dropWhile (!·.isSemicolon))
        else .fail (.missingColon t.text (some u.token)) (pos + t.width + widthOf ts) := by
  have htake : (ts ++ us).takeWhile isGap = ts ∧ (ts ++ us).dropWhile isGap = us := by
    rw [List.takeWhile_append_of_pos hts, List.dropWhile_append_of_pos hts]
    cases us with
    | nil => simp
    | cons u us => simp [hus u rfl]
  obtain ⟨htake, hdrop⟩ := htake
  rw [eventsOf]
  · simp only [htoken, htake]
    split
    · next hnil =>
      obtain rfl : us = [] := hdrop.symm.trans hnil
      rfl
    · next u more hcons =>
      obtain rfl : us = u :: more := hdrop.symm.trans hcons
      rfl
  · simp

theorem Reading.eventsOf_eq (h : Reading ctx pos ts p) : eventsOf ctx pos ts = p := by
  induction h with
  | @nil ctx pos inner =>
    cases ctx with
    | selectors => exact absurd rfl inner
    | rules => rw [eventsOf]
    | declarations => rw [eventsOf]
  | filler inner derives later ih =>
    rw [← ih, eventsOf]
    · cases derives with
      | white token => simp [token]
      | semicolon token => simp [token]
      | mark token => rcases token with token | token <;> simp [token]
    · exact inner
  | comment inner token later ih =>
    rw [← ih, eventsOf]
    · simp [token]
    · exact inner
  | @rule pos t ts p begins later ih =>
    unfold beginsRule at begins
    rw [eventsOf]
    · split at begins <;> simp_all
    · simp
  | selector unended comma values later ih =>
    rw [eventsOf_selectors unended (by simp [endsSelector, comma])]
    simp [comma, values, ih]
  | ruleset unended curly values inside later ihInside ih =>
    rw [eventsOf_selectors unended (by simp [endsSelector, curly])]
    simp [curly, Tree.not_isComma_of_isCurly curly, values, ihInside, ih]
  | @endInSelector pos selector unended =>
    have hwhole : eventsOf .selectors pos (selector ++ []) = _ :=
      eventsOf_selectors unended (by simp)
    rwa [List.append_nil] at hwhole
  | emptySelector unended mark values =>
    rw [eventsOf_selectors unended (by rcases mark with h | h <;> simp [endsSelector, h])]
    simp [values, mark]
  | inSelector unended ends comma curly =>
    rw [eventsOf_selectors unended (by simpa using ends)]
    simp [comma, curly]
  | @lastStatement ctx pos t prelude _ inner token unended =>
    have hwhole : eventsOf ctx pos (t :: (prelude ++ [])) = _ :=
      eventsOf_atKeyword inner token unended (by simp)
    rwa [List.append_nil] at hwhole
  | statement inner token unended semicolon later ih =>
    rw [eventsOf_atKeyword inner token unended (by simp [endsPrelude, semicolon])]
    simp [Tree.not_isCurly_of_isSemicolon semicolon, ih]
  | block inner token unended curly inside later ihInside ih =>
    rw [eventsOf_atKeyword inner token unended (by simp [endsPrelude, curly])]
    simp [curly, ihInside, ih]
  | declaration token blank mark unended ended later ih =>
    obtain ⟨htake, hdrop⟩ := Tree.takeWhile_append_stop unended ended
    rw [eventsOf_ident token blank (by simp [Tree.not_isGap_of_isColon mark])]
    simp [mark, htake, hdrop, ih]
  | @missingColon _ _ _ ts _ token blank other =>
    rw [eventsOf_ident token blank fun u hu => (other u hu).1]
    cases ts with
    | nil => rfl
    | cons u ts => simp [(other u rfl).2]
  | inRules token =>
    rw [eventsOf]
    · rcases token with ⟨b, token⟩ | ⟨s, token⟩ | ⟨s, token⟩ <;> simp [token]
    · simp
  | inDeclarations token =>
    rw [eventsOf]
    · simp only [List.mem_cons, not_or] at token
      split <;> simp_all
    · simp

end

end StyleSieve.Css
