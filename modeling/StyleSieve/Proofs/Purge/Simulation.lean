import StyleSieve.Proofs.Purge.Draft

/-!
# A purge follows its draft

While the events of a node are read, a state writes what the draft of the node holds
(`advance_write`). The invariant between a state and a draft is `Matches`; `Advance` adds how both
have moved. The counters of a state are left open.
-/

namespace StyleSieve.Purge

open Css
open Text (sameAscii unquote slice)
open Usage (fontName)

/-! ## Blocks -/

/-- The preludes of the groups that are pending, the outermost first. -/
def pendingPreludes : List Block → List String
  | [] => []
  | .pending prelude :: bs => pendingPreludes bs ++ [prelude]
  | _ :: bs => pendingPreludes bs

/-- The blocks after something inside was or was not written. -/
def settled (bs : List Block) (pending : List Event) : List Block :=
  if pending.isEmpty then (openPending bs).1 else bs

theorem pendingPreludes_openPending (bs : List Block) :
    pendingPreludes (openPending bs).1 = [] := by
  induction bs with
  | nil => rfl
  | cons b bs ih => cases b <;> simp [openPending, pendingPreludes, ih]

theorem openPending_outputs (bs : List Block) :
    (openPending bs).2 = (pendingPreludes bs).flatMap fun p => [.text p, .text "\x7b"] := by
  induction bs with
  | nil => rfl
  | cons b bs ih => cases b <;> simp [openPending, pendingPreludes, ih]

theorem openPending_of_no_pending {bs : List Block} (h : pendingPreludes bs = []) :
    (openPending bs).1 = bs := by
  induction bs with
  | nil => rfl
  | cons b bs ih =>
    cases b with
    | pending prelude => simp [pendingPreludes] at h
    | opened => simp [openPending, ih h]
    | fontFace => simp [openPending, ih h]

theorem settled_nil (bs : List Block) : settled bs [] = (openPending bs).1 := rfl

theorem settled_pending (bs : List Block) (prelude : String) (pending : List Event) :
    settled (.pending prelude :: bs) pending
      = if pending.isEmpty then .opened :: (openPending bs).1 else .pending prelude :: bs := rfl

theorem settled_opened (bs : List Block) (pending : List Event) :
    settled (.opened :: bs) pending = .opened :: settled bs pending := by
  unfold settled
  split <;> rfl

theorem settled_fontFace (bs : List Block) (pending : List Event) :
    settled (.fontFace :: bs) pending = .fontFace :: settled bs pending := by
  unfold settled
  split <;> rfl

theorem settled_of_pendingPreludes {bs : List Block} {pending : List Event}
    (h : pendingPreludes bs = pending.map Event.prelude) : settled bs pending = bs := by
  unfold settled
  split
  · next hnil =>
    rw [List.isEmpty_iff] at hnil
    exact openPending_of_no_pending (by rw [h, hnil, List.map_nil])
  · rfl

theorem outputs_openings (heads : List Event) :
    (openings heads).map Mark.output
      = (heads.map Event.prelude).flatMap fun p => [.text p, .text "\x7b"] := by
  induction heads with
  | nil => rfl
  | cons e heads ih => simp_all [openings, Mark.output]

/-! ## A run follows a draft -/

/-- The definition of a font as a state holds it. -/
def Held.fontFace (h : Held) : FontFace := ⟨(h.marks.map Mark.output).reverse, h.family⟩

/-- More has been written into the same definition. -/
def Held.Grows (h h' : Held) : Prop := h.marks <+: h'.marks

theorem Held.grows_refl (held : Option Held) : Option.Rel Held.Grows held held := by
  cases held with
  | none => exact .none
  | some h => exact .some (List.prefix_refl h.marks)

theorem Held.grows_trans {held held' held'' : Option Held} (h : Option.Rel Held.Grows held held')
    (h' : Option.Rel Held.Grows held' held'') : Option.Rel Held.Grows held held'' := by
  cases h with
  | none => exact h'
  | some hgrows =>
    cases h' with
    | some hgrows' => exact .some (hgrows.trans hgrows')

/-- A state that keeps has written what the draft holds. -/
structure Matches (s : State) (d : Draft) : Prop where
  mode : s.mode = .keeping
  pending : pendingPreludes s.blocks = d.pending.map Event.prelude
  fontFace : s.fontFace = d.held.map Held.fontFace

/-- From a state and a draft to later ones, with what was written in between. -/
structure Advance (s : State) (d : Draft) (os : List Output) (t : State) (d' : Draft) : Prop
    extends Matches t d' where
  retained : t.retained = s.retained
  blocks : t.blocks = settled s.blocks d'.pending
  groups : d'.pending = d.pending ∨ d'.pending = []
  held : Option.Rel Held.Grows d.held d'.held
  out : ∃ ms, d'.out = d.out ++ ms ∧ Alike os (ms.map Mark.output)

theorem Matches.fontFace_isNone {s : State} {d : Draft} (h : Matches s d) :
    s.fontFace.isNone = d.held.isNone := by
  rw [h.fontFace]
  cases d.held <;> rfl

namespace Advance

variable {s m t : State} {d d' d'' : Draft} {os os' : List Output}

/-- Nothing was written, and nothing has changed but the mode of counting. -/
theorem unchanged (h : Matches s d) (hmode : t.mode = .keeping) (hblocks : t.blocks = s.blocks)
    (hface : t.fontFace = s.fontFace) (hretained : t.retained = s.retained) :
    Advance s d [] t d where
  mode := hmode
  retained := hretained
  pending := by rw [hblocks, h.pending]
  fontFace := hface.trans h.fontFace
  blocks := by rw [hblocks, settled_of_pendingPreludes h.pending]
  groups := Or.inl rfl
  held := Held.grows_refl d.held
  out := ⟨[], (List.append_nil _).symm, Alike.refl []⟩

theorem trans (h : Advance s d os m d') (h' : Advance m d' os' t d'') :
    Advance s d (os ++ os') t d'' where
  mode := h'.mode
  retained := h'.retained.trans h.retained
  pending := h'.pending
  fontFace := h'.fontFace
  blocks := by
    rw [h'.blocks, h.blocks]
    rcases h'.groups with hgroups | hgroups
    · rw [hgroups]
      unfold settled
      split
      · exact openPending_of_no_pending (pendingPreludes_openPending _)
      · rfl
    · rw [hgroups, settled_nil, settled_nil]
      unfold settled
      split
      · exact openPending_of_no_pending (pendingPreludes_openPending _)
      · rfl
  groups := by
    rcases h'.groups with hgroups | hgroups
    · rw [hgroups]
      exact h.groups
    · exact Or.inr hgroups
  held := Held.grows_trans h.held h'.held
  out := by
    obtain ⟨ms, hms, halike⟩ := h.out
    obtain ⟨ms', hms', halike'⟩ := h'.out
    refine ⟨ms ++ ms', ?_, ?_⟩
    · rw [hms', hms, List.append_assoc]
    · rw [List.map_append]
      exact halike.append halike'

/-- Writing out when no font is held back. The same text may be handed over in another way. -/
theorem put_out (h : Matches s d) (hheld : d.held = none) {os : List Output} {ms : List Mark}
    (halike : Alike os (ms.map Mark.output)) :
    Advance s d (s.put os).2 (s.put os).1 (d.put ms) := by
  have hface : s.fontFace = none := by rw [h.fontFace, hheld, Option.map_none]
  have hput : s.put os = (s, os) := by simp [State.put, hface]
  have hdraft : d.put ms = { d with out := d.out ++ ms } := by simp [Draft.put, hheld]
  rw [hput, hdraft]
  exact
    { mode := h.mode
      retained := rfl
      pending := h.pending
      fontFace := h.fontFace
      blocks := (settled_of_pendingPreludes h.pending).symm
      groups := Or.inl rfl
      held := Held.grows_refl d.held
      out := ⟨ms, rfl, halike⟩ }

/-- Writing into the definition of a font. -/
theorem put_held (h : Matches s d) {held : Held} (hheld : d.held = some held) (ms : List Mark) :
    Advance s d (s.put (ms.map Mark.output)).2 (s.put (ms.map Mark.output)).1 (d.put ms) := by
  have hface : s.fontFace = some held.fontFace := by rw [h.fontFace, hheld, Option.map_some]
  have hput : s.put (ms.map Mark.output)
      = ({ s with fontFace := some (Held.fontFace { held with marks := held.marks ++ ms }) },
        []) := by
    simp [State.put, hface, Held.fontFace]
  have hdraft : d.put ms = { d with held := some { held with marks := held.marks ++ ms } } := by
    simp [Draft.put, hheld]
  rw [hput, hdraft]
  exact
    { mode := h.mode
      retained := rfl
      pending := h.pending
      fontFace := rfl
      blocks := (settled_of_pendingPreludes h.pending).symm
      groups := Or.inl rfl
      held := by
        rw [hheld]
        exact .some (List.prefix_append held.marks ms)
      out := ⟨[], (List.append_nil _).symm, Alike.refl []⟩ }

/-- Writing where the text belongs. -/
theorem put (h : Matches s d) (ms : List Mark) :
    Advance s d (s.put (ms.map Mark.output)).2 (s.put (ms.map Mark.output)).1 (d.put ms) := by
  cases hheld : d.held with
  | none => exact put_out h hheld (Alike.refl _)
  | some held => exact put_held h hheld ms

theorem openAll (h : Matches s d) : Advance s d s.openAll.2 s.openAll.1 d.openAll where
  mode := h.mode
  retained := rfl
  pending := pendingPreludes_openPending s.blocks
  fontFace := h.fontFace
  blocks := rfl
  groups := Or.inr rfl
  held := Held.grows_refl d.held
  out := by
    refine ⟨openings d.pending, rfl, ?_⟩
    rw [outputs_openings, ← h.pending, ← openPending_outputs]
    exact Alike.refl _

theorem putInside (h : Matches s d) (ms : List Mark) :
    Advance s d (s.putInside (ms.map Mark.output)).2 (s.putInside (ms.map Mark.output)).1
      (d.putInside ms) :=
  (openAll h).trans (put (openAll h).toMatches ms)

theorem putInside_out (h : Matches s d) (hheld : d.held = none) {os : List Output} {ms : List Mark}
    (halike : Alike os (ms.map Mark.output)) :
    Advance s d (s.putInside os).2 (s.putInside os).1 (d.putInside ms) :=
  (openAll h).trans (put_out (openAll h).toMatches hheld halike)

/-- Whether a selector has been kept does not matter between the selectors of a list. -/
theorem retaining (h : Advance s d os t d') (retained : Bool) :
    Advance { s with retained := retained } d os { t with retained := retained } d' :=
  { h with
    mode := h.mode
    pending := h.pending
    fontFace := h.fontFace
    retained := rfl }

theorem of_put (h : Matches s d) (ms : List Mark) (hput : s.put (ms.map Mark.output) = (t, os)) :
    Advance s d os t (d.put ms) := by
  have hadvance := put h ms
  rwa [hput] at hadvance

theorem of_putInside (h : Matches s d) (ms : List Mark)
    (hput : s.putInside (ms.map Mark.output) = (t, os)) :
    Advance s d os t (d.putInside ms) := by
  have hadvance := putInside h ms
  rwa [hput] at hadvance

end Advance

/-! ## Steps while keeping -/

namespace Draft

theorem put_put (d : Draft) (ms ms' : List Mark) : (d.put ms).put ms' = d.put (ms ++ ms') := by
  rcases d with ⟨out, pending, held⟩
  cases held <;> simp [put]

theorem putInside_put (d : Draft) (ms ms' : List Mark) :
    (d.putInside ms).put ms' = d.putInside (ms ++ ms') := put_put _ _ _

theorem putInside_putInside (d : Draft) (ms ms' : List Mark) :
    (d.putInside ms).putInside ms' = d.putInside (ms ++ ms') := by
  rcases d with ⟨out, pending, held⟩
  cases held <;> simp [putInside, openAll, put, openings]

/-- Writes the selectors that are kept. The groups around are opened if there are any. -/
def select (d : Draft) (comma : Bool) (kept : List Event) : Draft :=
  if kept.isEmpty then d else d.putInside (selectorMarks comma kept)

theorem selectorMarks_append (comma : Bool) (kept more : List Event) :
    selectorMarks comma (kept ++ more)
      = selectorMarks comma kept ++ selectorMarks (comma || !kept.isEmpty) more := by
  induction kept generalizing comma with
  | nil => simp [selectorMarks]
  | cons e kept ih => simp [selectorMarks, ih]

theorem select_append (d : Draft) (comma : Bool) (kept more : List Event) :
    (d.select comma kept).select (comma || !kept.isEmpty) more = d.select comma (kept ++ more) := by
  cases kept with
  | nil => simp [select]
  | cons e kept =>
    cases more with
    | nil => simp [select]
    | cons e' more =>
      simp only [select, List.isEmpty_cons, List.cons_append, Bool.false_eq_true, if_false]
      rw [putInside_putInside, ← List.cons_append, selectorMarks_append]
      rfl

end Draft

/-- What a state learns from a declaration. -/
def State.hear (s : State) (e : Event) : State :=
  let named := fun (face : FontFace) =>
    if sameAscii e.data "font-family" then { face with family := fontName e.text } else face
  { s with fontFace := s.fontFace.map named }

section

variable {j : Judge} {source : String} {s t : State} {d : Draft} {os : List Output} {e : Event}

theorem step_keeping (hmode : s.mode = .keeping) : s.step j source e = s.kept j e := by
  simp [State.step, hmode]

/-- A declaration may tell the family of the font that is held back. -/
theorem advance_hear (h : Matches s d) (e : Event) : Advance s d [] (s.hear e) (d.hear e) := by
  rcases d with ⟨out, pending, held⟩
  have hface := h.fontFace
  refine ⟨⟨h.mode, ?_, ?_⟩, rfl, ?_, ?_, ?_, ?_⟩
  · unfold Draft.hear
    split <;> exact h.pending
  · unfold Draft.hear State.hear
    split <;> cases held <;> simp_all [Held.fontFace]
  · unfold Draft.hear
    split <;> exact (settled_of_pendingPreludes h.pending).symm
  · unfold Draft.hear
    split <;> exact Or.inl rfl
  · unfold Draft.hear
    split
    · cases held with
      | none => exact .none
      | some face => exact .some (List.prefix_refl face.marks)
    · exact Held.grows_refl held
  · refine ⟨[], ?_, Alike.refl []⟩
    unfold Draft.hear
    split <;> simp

theorem advance_comment (h : Matches s d) (hkind : e.kind = .comment)
    (hstep : s.step j source e = .ok (t, os)) :
    Advance s d os t (Draft.write j source (.comment e) d) := by
  rw [step_keeping h.mode] at hstep
  simp only [State.kept, hkind, State.comment, Except.ok.injEq] at hstep
  rw [Draft.write, isKeptComment]
  split at hstep
  · next hkept =>
    rw [if_pos hkept]
    exact Advance.of_put h _ hstep
  · next hkept =>
    rw [if_neg hkept]
    obtain ⟨rfl, rfl⟩ := Prod.mk.inj hstep
    exact Advance.unchanged h h.mode rfl rfl rfl

theorem advance_statement (h : Matches s d) (hkind : e.kind = .statement)
    (hstep : s.step j source e = .ok (t, os)) :
    Advance s d os t (Draft.write j source (.statement e) d) := by
  rw [step_keeping h.mode] at hstep
  simp only [State.kept, hkind, Except.ok.injEq] at hstep
  rw [Draft.write]
  exact Advance.of_putInside h _ hstep

theorem advance_declaration (h : Matches s d)
    (hkind : e.kind = .declaration ∨ e.kind = .customDeclaration)
    (hstep : s.step j source e = .ok (t, os)) :
    Advance s d os t (Draft.write j source (.declaration e) d) := by
  have hdeclare : s.declaration e = (t, os) := by
    rw [step_keeping h.mode] at hstep
    rcases hkind with hkind | hkind <;> simpa [State.kept, hkind] using hstep
  have hhear := advance_hear h e
  rw [Draft.write]
  exact hhear.trans (Advance.of_put hhear.toMatches _ hdeclare)

/-! ## Rules -/

/-- Some selectors of a list have been read, and those that are kept are written. -/
structure Selects (j : Judge) (s : State) (d : Draft) (es : List Event) (os : List Output)
    (t : State) : Prop where
  retained : t.retained = (s.retained || !(es.filter j.keeps).isEmpty)
  advance : Advance { s with retained := t.retained } d os t
    (d.select s.retained (es.filter j.keeps))

theorem Selects.append {m : State} {es es' : List Event} {os' : List Output}
    (h : Selects j s d es os m)
    (h' : Selects j m (d.select s.retained (es.filter j.keeps)) es' os' t) :
    Selects j s d (es ++ es') (os ++ os') t := by
  have hboth := (h.advance.retaining t.retained).trans h'.advance
  rw [h.retained, Draft.select_append, ← List.filter_append] at hboth
  refine ⟨?_, hboth⟩
  rw [h'.retained, h.retained, List.filter_append, Bool.or_assoc]
  cases es.filter j.keeps <;> simp

theorem selects_nil (h : Matches s d) : Selects j s d [] [] s where
  retained := by simp
  advance := Advance.unchanged h h.mode rfl rfl rfl

/-- A selector is written, or it is left and only counted. -/
theorem selects_selector (h : Matches s d) (hselector : s.selector j e = .ok (t, os)) :
    Selects j s d [e] os t := by
  rw [State.selector] at hselector
  split at hselector
  · simp at hselector
  · next chain hchain =>
    have hkeeps : j.keeps e = j.index.includes chain := by simp [Judge.keeps, hchain]
    split at hselector
    · next hincluded =>
      simp only [Except.ok.injEq] at hselector
      have hfilter : [e].filter j.keeps = [e] := by simp [hkeeps, hincluded]
      have hnext : Matches { s with
          retained := true
          counts := { s.counts with selectorsKept := s.counts.selectorsKept + 1 } } d :=
        ⟨h.mode, h.pending, h.fontFace⟩
      have hadvance : Advance _ d os t (d.putInside (selectorMarks s.retained [e])) :=
        Advance.of_putInside hnext _ (by
          rw [← hselector]
          cases s.retained <;> rfl)
      have hretained : t.retained = true := hadvance.retained
      refine ⟨by simp [hretained, hfilter], ?_⟩
      rw [hfilter]
      exact { hadvance with retained := rfl }
    · next hincluded =>
      simp only [Except.ok.injEq] at hselector
      obtain ⟨rfl, rfl⟩ := Prod.mk.inj hselector
      have hfilter : [e].filter j.keeps = [] := by simp [hkeeps, hincluded]
      refine ⟨by simp [hfilter], ?_⟩
      rw [hfilter]
      exact Advance.unchanged ⟨h.mode, h.pending, h.fontFace⟩ h.mode rfl rfl rfl

/-- The selectors of a list that others follow. -/
theorem selects_of_runs {es : List Event} (h : Matches s d) (hkind : ∀ e ∈ es, e.kind = .selector)
    (hruns : Runs j source s es os t) : Selects j s d es os t := by
  induction es generalizing s d os with
  | nil =>
    obtain ⟨rfl, rfl⟩ := runs_nil_iff.1 hruns
    exact selects_nil h
  | cons e es ih =>
    obtain ⟨m, here, later, step, rest, rfl⟩ := runs_cons_iff.1 hruns
    rw [step_keeping h.mode] at step
    simp only [State.kept, hkind e List.mem_cons_self] at step
    have hfirst := selects_selector h step
    exact hfirst.append (ih hfirst.advance.toMatches
      (fun x hx => hkind x (List.mem_cons_of_mem e hx)) rest)

/-- After the last selector of a list the block of the rule begins, or the rule is skipped. -/
theorem selects_list {earlier : List Event} (h : Matches s d)
    (hearlier : ∀ x ∈ earlier, x.kind = .selector) (hlast : e.kind = .rulesetStart)
    (hruns : Runs j source s (earlier ++ [e]) os t) :
    ∃ m before after, os = before ++ after ∧ Selects j s d (earlier ++ [e]) before m ∧
      if m.retained then { m with retained := false }.put [.text "\x7b"] = (t, after)
      else ∃ counts, t = { m with mode := .skipping 1, counts := counts } ∧ after = [] := by
  obtain ⟨m₁, here, later, hruns₁, hrest, rfl⟩ := runs_append_iff.1 hruns
  have hselects₁ := selects_of_runs h hearlier hruns₁
  have hstep := runs_singleton_iff.1 hrest
  rw [step_keeping hselects₁.advance.mode] at hstep
  simp only [State.kept, hlast, State.rulesetStart] at hstep
  split at hstep
  · simp at hstep
  · next m before hselector =>
    have hselects := hselects₁.append (selects_selector hselects₁.advance.toMatches hselector)
    split at hstep
    · next hretained =>
      simp only [Except.ok.injEq] at hstep
      obtain ⟨rfl, rfl⟩ := Prod.mk.inj hstep
      refine ⟨m, here ++ before, _, (List.append_assoc ..).symm, hselects, ?_⟩
      rw [if_pos hretained]
    · next hretained =>
      simp only [Except.ok.injEq] at hstep
      obtain ⟨rfl, rfl⟩ := Prod.mk.inj hstep
      refine ⟨m, here ++ before, [], (List.append_nil _).symm, hselects, ?_⟩
      rw [if_neg hretained]
      exact ⟨_, rfl, rfl⟩

end

/-! ## States that only count -/

/-- States that count how deeply events are nested between two kinds of brackets. Nothing is written
while the count is not back at zero. -/
structure Counting (j : Judge) (source : String) (deep : Nat → State) (up down : EventKind) :
    Prop where
  brackets : up = .rulesetStart ∧ down = .rulesetEnd ∨ up = .blockStart ∧ down = .blockEnd
  begins : ∀ k e, e.kind = up → (deep (k + 1)).step j source e = .ok (deep (k + 2), [])
  ends : ∀ k e, e.kind = down → (deep (k + 2)).step j source e = .ok (deep (k + 1), [])
  others : ∀ k e, e.kind ≠ up → e.kind ≠ down →
    (deep (k + 1)).step j source e = .ok (deep (k + 1), [])

theorem counting_skipping (j : Judge) (source : String) (s : State) :
    Counting j source (fun k => { s with mode := .skipping k }) .rulesetStart .rulesetEnd where
  brackets := Or.inl ⟨rfl, rfl⟩
  begins k e he := by simp [State.step, State.inRemoved, he]
  ends k e he := by simp [State.step, State.inRemoved, he]
  others k e hup hdown := by
    cases hkind : e.kind <;> simp_all [State.step, State.inRemoved]

theorem counting_keyframes (j : Judge) (source : String) (s : State) (keep : Bool) (start : Nat) :
    Counting j source (fun k => { s with mode := .keyframes keep start k }) .blockStart .blockEnd
    where
  brackets := Or.inr ⟨rfl, rfl⟩
  begins k e he := by simp [State.step, State.inKeyframes, he]
  ends k e he := by simp [State.step, State.inKeyframes, he]
  others k e hup hdown := by
    cases hkind : e.kind <;> simp_all [State.step, State.inKeyframes]

namespace Counting

variable {j : Judge} {source : String} {deep : Nat → State} {up down : EventKind}

theorem runs_others (h : Counting j source deep up down) (k : Nat) {es : List Event}
    (hes : ∀ e ∈ es, e.kind ≠ up ∧ e.kind ≠ down) :
    Runs j source (deep (k + 1)) es [] (deep (k + 1)) := by
  induction es with
  | nil => exact .nil _
  | cons e es ih =>
    have he := hes e List.mem_cons_self
    exact .cons (h.others k e he.1 he.2) (ih fun x hx => hes x (List.mem_cons_of_mem e hx))

/-- An event that is no bracket of a block. -/
theorem runs_alone (h : Counting j source deep up down) (k : Nat) {e : Event}
    (hruleset : e.kind ≠ .rulesetStart ∧ e.kind ≠ .rulesetEnd)
    (hblock : e.kind ≠ .blockStart ∧ e.kind ≠ .blockEnd) :
    Runs j source (deep (k + 1)) [e] [] (deep (k + 1)) := by
  refine h.runs_others k fun x hx => ?_
  rw [List.mem_singleton.1 hx]
  rcases h.brackets with ⟨rfl, rfl⟩ | ⟨rfl, rfl⟩
  · exact hruleset
  · exact hblock

/-- A block with its end, whether or not its brackets are counted. -/
theorem runs_wrap (h : Counting j source deep up down) (k : Nat) {head stop : Event}
    {es : List Event}
    (hkinds : head.kind = .rulesetStart ∧ stop.kind = .rulesetEnd
      ∨ head.kind = .blockStart ∧ stop.kind = .blockEnd)
    (hes : ∀ k, Runs j source (deep (k + 1)) es [] (deep (k + 1))) :
    Runs j source (deep (k + 1)) (head :: (es ++ [stop])) [] (deep (k + 1)) := by
  by_cases hcounted : head.kind = up
  · have hstop : stop.kind = down := by
      rcases h.brackets with ⟨hup, hdown⟩ | ⟨hup, hdown⟩ <;> simp_all
    refine .cons (h.begins k head hcounted) (runs_append_iff.2 ⟨_, [], [], hes (k + 1), ?_, rfl⟩)
    exact runs_singleton_iff.2 (h.ends k stop hstop)
  · have hother : head.kind ≠ down ∧ stop.kind ≠ up ∧ stop.kind ≠ down := by
      rcases h.brackets with ⟨hup, hdown⟩ | ⟨hup, hdown⟩ <;>
        rcases hkinds with ⟨hhead, hstop⟩ | ⟨hhead, hstop⟩ <;> simp_all
    refine .cons (h.others k head hcounted hother.1)
      (runs_append_iff.2 ⟨_, [], [], hes k, ?_, rfl⟩)
    exact runs_singleton_iff.2 (h.others k stop hother.2.1 hother.2.2)

mutual

/-- A whole node leaves the count as it was. -/
theorem runs_events {ctx : Context} (h : Counting j source deep up down) :
    ∀ {n : Node}, n.Fits ctx → ∀ k, Runs j source (deep (k + 1)) n.events [] (deep (k + 1))
  | .comment e, .comment kind, k => by
    rw [Node.events_comment]
    exact h.runs_alone k (by simp [kind]) (by simp [kind])
  | .declaration e, .declaration kind, k => by
    rw [Node.events_declaration]
    rcases kind with kind | kind <;> exact h.runs_alone k (by simp [kind]) (by simp [kind])
  | .statement e, .statement kind, k => by
    rw [Node.events_statement]
    exact h.runs_alone k (by simp [kind]) (by simp [kind])
  | .ruleset earlier last body stop, .ruleset hearlier hlast hstop fits, k => by
    rw [Node.events_ruleset]
    have hselectors : Runs j source (deep (k + 1)) earlier [] (deep (k + 1)) :=
      h.runs_others k fun e he => by
        rcases h.brackets with ⟨rfl, rfl⟩ | ⟨rfl, rfl⟩ <;> simp [hearlier e he]
    have hbody := h.runs_wrap k (Or.inl ⟨hlast, hstop⟩) (h.runs_eventsIn fits)
    exact runs_append_iff.2 ⟨_, [], [], hselectors, hbody, rfl⟩
  | .block head body stop, .block hhead hstop fits, k => by
    rw [Node.events_block]
    exact h.runs_wrap k (Or.inr ⟨hhead, hstop⟩) (h.runs_eventsIn fits)

theorem runs_eventsIn {ctx : Context} (h : Counting j source deep up down) :
    ∀ {ns : List Node}, (∀ n ∈ ns, n.Fits ctx) →
      ∀ k, Runs j source (deep (k + 1)) (Node.eventsIn ns) [] (deep (k + 1))
  | [], _, k => by
    rw [Node.eventsIn_nil]
    exact .nil _
  | n :: ns, fits, k => by
    rw [Node.eventsIn_cons]
    have hn := h.runs_events (fits n List.mem_cons_self) k
    have hns := h.runs_eventsIn (fun m hm => fits m (List.mem_cons_of_mem n hm)) k
    exact runs_append_iff.2 ⟨_, [], [], hn, hns, rfl⟩

end

end Counting

/-! ## Blocks of at-rules -/

/-- A run over the events of some nodes writes their draft. -/
def Follows (j : Judge) (source : String) (ns : List Node) : Prop :=
  ∀ {s t : State} {os : List Output} {d : Draft}, Runs j source s (Node.eventsIn ns) os t →
    Matches s d → s.retained = false → Advance s d os t (Draft.writeIn j source ns d)

section

variable {j : Judge} {source : String} {s m t : State} {d d' : Draft} {os os' : List Output}
  {head stop : Event} {body : List Node}

/-- What stands inside a removed rule, with its end. -/
theorem runs_skipped {ctx : Context} (hmode : s.mode = .skipping 1) (hbody : ∀ n ∈ body, n.Fits ctx)
    (hstop : stop.kind = .rulesetEnd)
    (hruns : Runs j source s (Node.eventsIn body ++ [stop]) os t) :
    t = { s with mode := .keeping } ∧ os = [] := by
  obtain ⟨m, inside, last, hinside, hlast, rfl⟩ := runs_append_iff.1 hruns
  have hcounted := (counting_skipping j source s).runs_eventsIn hbody 0
  have hsame : { s with mode := .skipping (0 + 1) } = s := by rw [Nat.zero_add, ← hmode]
  rw [hsame] at hcounted
  obtain ⟨rfl, rfl⟩ := runs_unique hinside hcounted
  have hend := runs_singleton_iff.1 hlast
  simp only [State.step, hmode, State.inRemoved, hstop, Nat.sub_self, if_true,
    Except.ok.injEq] at hend
  obtain ⟨rfl, rfl⟩ := Prod.mk.inj hend
  exact ⟨rfl, rfl⟩

/-- The definition of an animation. Nothing is written before its end. -/
theorem runs_keyframes {ctx : Context} (hmode : s.mode = .keeping)
    (hhead : head.kind = .blockStart) (hstop : stop.kind = .blockEnd)
    (hbody : ∀ n ∈ body, n.Fits ctx) (hname : isKeyframes head.atName)
    (hruns : Runs j source s (head :: (Node.eventsIn body ++ [stop])) os t) :
    let m := { s with counts := { s.counts with
      keyframesRemoved := s.counts.keyframesRemoved + if j.wantsAnimation head then 0 else 1 } }
    if j.wantsAnimation head then
      m.putInside [.text (slice source head.span.start stop.span.stop)] = (t, os)
    else t = m ∧ os = [] := by
  obtain ⟨m, here, later, hstart, hrest, rfl⟩ := runs_cons_iff.1 hruns
  rw [step_keeping hmode] at hstart
  simp only [State.kept, hhead, State.blockStart, hname, if_true, Except.ok.injEq] at hstart
  obtain ⟨rfl, rfl⟩ := Prod.mk.inj hstart
  obtain ⟨m', inside, last, hinside, hlast, rfl⟩ := runs_append_iff.1 hrest
  have hcounted := (counting_keyframes j source
    { s with counts := { s.counts with keyframesRemoved := s.counts.keyframesRemoved +
        if j.references.animationWanted j.index (unquote head.text) then 0 else 1 } }
    (j.references.animationWanted j.index (unquote head.text)) head.span.start).runs_eventsIn
    hbody 0
  obtain ⟨rfl, rfl⟩ := runs_unique hinside hcounted
  have hend := runs_singleton_iff.1 hlast
  simp only [State.step, State.inKeyframes, hstop, Nat.zero_add, Nat.sub_self, gt_iff_lt,
    Nat.lt_irrefl, if_false, Except.ok.injEq, ← hmode] at hend
  unfold Judge.wantsAnimation
  dsimp only
  by_cases hwanted : j.references.animationWanted j.index (unquote head.text) = true
  · rw [if_pos hwanted] at hend
    rw [if_pos hwanted]
    exact hend
  · rw [if_neg hwanted] at hend
    rw [if_neg hwanted]
    obtain ⟨rfl, rfl⟩ := Prod.mk.inj hend
    exact ⟨rfl, rfl⟩

theorem advance_keyframes {ctx : Context} (h : Matches s d) (hhead : head.kind = .blockStart)
    (hstop : stop.kind = .blockEnd) (hbody : ∀ n ∈ body, n.Fits ctx)
    (hname : isKeyframes head.atName)
    (hruns : Runs j source s (head :: (Node.eventsIn body ++ [stop])) os t) :
    Advance s d os t (Draft.write j source (.block head body stop) d) := by
  have hend := runs_keyframes h.mode hhead hstop hbody hname hruns
  dsimp only at hend
  rw [Draft.write, if_pos hname]
  split at hend
  · next hwanted =>
    rw [if_pos hwanted]
    have hkept : Matches { s with counts := { s.counts with
        keyframesRemoved := s.counts.keyframesRemoved + 0 } } d :=
      ⟨h.mode, h.pending, h.fontFace⟩
    exact { Advance.of_putInside hkept
      [.text head (.text (slice source head.span.start stop.span.stop))] hend with }
  · next hwanted =>
    rw [if_neg hwanted]
    obtain ⟨rfl, rfl⟩ := hend
    exact Advance.unchanged h h.mode rfl rfl rfl

/-- What stands inside an open block or the definition of a font, seen from outside. -/
theorem Advance.leave {b : Block} {blocks : List Block} (hb : b = .opened ∨ b = .fontFace)
    (hblocks : s.blocks = b :: blocks) (h : Advance s d os t d') :
    t.blocks.head? = some b ∧
      Advance { s with blocks := blocks } d os { t with blocks := t.blocks.drop 1 } d' := by
  have hsettled : t.blocks = b :: settled blocks d'.pending := by
    rcases hb with rfl | rfl
    · rw [h.blocks, hblocks, settled_opened]
    · rw [h.blocks, hblocks, settled_fontFace]
  refine ⟨by simp [hsettled], ?_⟩
  have hpending := h.pending
  rw [hsettled] at hpending
  exact
    { mode := h.mode
      retained := h.retained
      pending := by
        rw [hsettled]
        rcases hb with rfl | rfl <;> exact hpending
      fontFace := h.fontFace
      blocks := by rw [hsettled]; rfl
      groups := h.groups
      held := h.held
      out := h.out }

/-- A group that was opened inside, seen from outside. -/
theorem Advance.leave_opened {inner : Draft} (hopened : inner.pending.isEmpty)
    (h : Advance { s with blocks := .pending head.prelude :: s.blocks }
      { d with pending := d.pending ++ [head] } os t inner) :
    t.blocks = .opened :: (openPending s.blocks).1 ∧
      Advance s d os { t with blocks := (openPending s.blocks).1 } inner := by
  have hblocks : t.blocks = .opened :: (openPending s.blocks).1 := by
    rw [h.blocks, settled_pending, if_pos hopened]
  have hpending := h.pending
  rw [hblocks] at hpending
  exact ⟨hblocks,
    { mode := h.mode
      retained := h.retained
      pending := hpending
      fontFace := h.fontFace
      blocks := by simp [settled, hopened]
      groups := Or.inr (List.isEmpty_iff.1 hopened)
      held := h.held
      out := h.out }⟩

/-- A group inside which nothing was written, seen from outside. -/
theorem Advance.leave_pending {inner : Draft} (hs : Matches s d)
    (hclosed : ¬ inner.pending.isEmpty)
    (h : Advance { s with blocks := .pending head.prelude :: s.blocks }
      { d with pending := d.pending ++ [head] } os t inner) :
    t.blocks = .pending head.prelude :: s.blocks ∧
      Advance s d os { t with blocks := s.blocks } { inner with pending := d.pending } := by
  refine ⟨by rw [h.blocks, settled_pending, if_neg hclosed], ?_⟩
  exact
    { mode := h.mode
      retained := h.retained
      pending := hs.pending
      fontFace := h.fontFace
      blocks := (settled_of_pendingPreludes hs.pending).symm
      groups := Or.inl rfl
      held := h.held
      out := h.out }

/-- The definition of a font has gone, whatever it held. -/
theorem Advance.drop_held {face : Option FontFace} {held : Option Held} {inner : Draft}
    (hnone : d.held = none) (counts : Counts)
    (h : Advance { s with fontFace := face } { d with held := held } os t inner) :
    Advance s d os { t with fontFace := none, counts := counts } { inner with held := none } where
  mode := h.mode
  retained := h.retained
  pending := h.pending
  fontFace := rfl
  blocks := h.blocks
  groups := h.groups
  held := by
    rw [hnone]
    exact .none
  out := h.out

/-- A definition of a font that goes out in one piece. -/
theorem alike_fontFace {held : Held} (h : headMarks head <+: held.marks) :
    Alike [.text (textOf (held.fontFace.outputs.reverse ++ [.close]))]
      ((held.marks ++ [Mark.closes head]).map Mark.output) := by
  obtain ⟨more, hmore⟩ := h
  have hmarks : held.fontFace.outputs.reverse = held.marks.map Mark.output := by
    simp [Held.fontFace]
  rw [hmarks, ← hmore, List.map_append, List.map_append]
  exact Alike.joined head.prelude (.text "\x7b" :: more.map Mark.output)

/-- A block that is always kept. -/
theorem advance_other (h : Matches s d) (hretained : s.retained = false)
    (hhead : head.kind = .blockStart) (hstop : stop.kind = .blockEnd)
    (hkeyframes : ¬ isKeyframes head.atName) (hconditional : ¬ isConditional head.atName)
    (hfontFace : ¬ (isFontFace head.atName && d.held.isNone)) (hbody : Follows j source body)
    (hruns : Runs j source s (head :: (Node.eventsIn body ++ [stop])) os t) :
    Advance s d os t (Draft.write j source (.block head body stop) d) := by
  obtain ⟨m, here, later, hstart, hrest, rfl⟩ := runs_cons_iff.1 hruns
  rw [step_keeping h.mode] at hstart
  simp only [State.kept, hhead, State.blockStart, hkeyframes, hconditional, h.fontFace_isNone,
    hfontFace, if_false, Except.ok.injEq, Bool.false_eq_true] at hstart
  obtain ⟨rfl, rfl⟩ := Prod.mk.inj hstart
  have hbegin := Advance.putInside h (headMarks head)
  obtain ⟨m', inside, last, hinside, hlast, rfl⟩ := runs_append_iff.1 hrest
  have hinner := hbody hinside ⟨hbegin.mode, hbegin.pending, hbegin.fontFace⟩
    (hbegin.retained.trans hretained)
  obtain ⟨hblocks, hleave⟩ := hinner.leave (Or.inl rfl) rfl
  have hend := runs_singleton_iff.1 hlast
  rw [step_keeping hinner.mode] at hend
  simp only [State.kept, hstop, State.blockEnd, hblocks, Except.ok.injEq] at hend
  rw [Draft.write, if_neg hkeyframes, if_neg hconditional, if_neg hfontFace]
  exact hbegin.trans (hleave.trans (Advance.of_put hleave.toMatches [.closes head] hend))

/-- A conditional group. Nothing is left of it if nothing inside was written. -/
theorem advance_conditional (h : Matches s d) (hretained : s.retained = false)
    (hhead : head.kind = .blockStart) (hstop : stop.kind = .blockEnd)
    (hkeyframes : ¬ isKeyframes head.atName) (hconditional : isConditional head.atName)
    (hbody : Follows j source body)
    (hruns : Runs j source s (head :: (Node.eventsIn body ++ [stop])) os t) :
    Advance s d os t (Draft.write j source (.block head body stop) d) := by
  obtain ⟨m, here, later, hstart, hrest, rfl⟩ := runs_cons_iff.1 hruns
  rw [step_keeping h.mode] at hstart
  simp only [State.kept, hhead, State.blockStart, hkeyframes, hconditional, if_true,
    if_false, Except.ok.injEq, Bool.false_eq_true] at hstart
  obtain ⟨rfl, rfl⟩ := Prod.mk.inj hstart
  obtain ⟨m', inside, last, hinside, hlast, rfl⟩ := runs_append_iff.1 hrest
  have hbegin : Matches { s with blocks := .pending head.prelude :: s.blocks }
      { d with pending := d.pending ++ [head] } :=
    ⟨h.mode, by simp [pendingPreludes, h.pending], h.fontFace⟩
  have hinner := hbody hinside hbegin hretained
  have hend := runs_singleton_iff.1 hlast
  rw [step_keeping hinner.mode] at hend
  rw [Draft.write, if_neg hkeyframes, if_pos hconditional]
  dsimp only
  split
  · next hopened =>
    obtain ⟨hblocks, hleave⟩ := hinner.leave_opened hopened
    simp only [State.kept, hstop, State.blockEnd, hblocks, List.head?_cons, List.drop_one,
      List.tail_cons, Except.ok.injEq] at hend
    exact hleave.trans (Advance.of_put hleave.toMatches [.closes head] hend)
  · next hclosed =>
    obtain ⟨hblocks, hleave⟩ := hinner.leave_pending h hclosed
    simp only [State.kept, hstop, State.blockEnd, hblocks, List.head?_cons, List.drop_one,
      List.tail_cons, Except.ok.injEq] at hend
    obtain ⟨rfl, rfl⟩ := Prod.mk.inj hend
    rwa [List.append_nil]

/-- The definition of a font. It goes out at its end if its family is wanted. -/
theorem advance_fontFace (h : Matches s d) (hretained : s.retained = false)
    (hhead : head.kind = .blockStart) (hstop : stop.kind = .blockEnd)
    (hkeyframes : ¬ isKeyframes head.atName) (hconditional : ¬ isConditional head.atName)
    (hfontFace : isFontFace head.atName && d.held.isNone) (hbody : Follows j source body)
    (hruns : Runs j source s (head :: (Node.eventsIn body ++ [stop])) os t) :
    Advance s d os t (Draft.write j source (.block head body stop) d) := by
  obtain ⟨m, here, later, hstart, hrest, rfl⟩ := runs_cons_iff.1 hruns
  rw [step_keeping h.mode] at hstart
  simp only [State.kept, hhead, State.blockStart, hkeyframes, hconditional, h.fontFace_isNone,
    hfontFace, if_true, if_false, Except.ok.injEq, Bool.false_eq_true] at hstart
  obtain ⟨rfl, rfl⟩ := Prod.mk.inj hstart
  obtain ⟨m', inside, last, hinside, hlast, rfl⟩ := runs_append_iff.1 hrest
  have hnone : d.held = none := by
    rw [Bool.and_eq_true] at hfontFace
    exact Option.isNone_iff_eq_none.1 hfontFace.2
  have hbegin : Matches { s with
      fontFace := some ⟨[.text "\x7b", .text head.prelude], ""⟩
      blocks := .fontFace :: s.blocks } { d with held := some ⟨headMarks head, ""⟩ } :=
    ⟨h.mode, h.pending, rfl⟩
  have hinner := hbody hinside hbegin hretained
  obtain ⟨hblocks, hleave⟩ := hinner.leave (Or.inr rfl) rfl
  have hend := runs_singleton_iff.1 hlast
  rw [step_keeping hinner.mode] at hend
  rw [Draft.write, if_neg hkeyframes, if_neg hconditional, if_pos hfontFace]
  generalize Draft.writeIn j source body { d with held := some ⟨headMarks head, ""⟩ } = inner at *
  obtain ⟨held, hheld, hgrows⟩ :
      ∃ held, inner.held = some held ∧ headMarks head <+: held.marks := by
    have hgrow := hinner.held
    cases hheld : inner.held with
    | none => simp [hheld] at hgrow
    | some held => exact ⟨held, rfl, by simpa [hheld, Held.Grows] using hgrow⟩
  have hface : m'.fontFace = some held.fontFace := by
    rw [hinner.fontFace, hheld, Option.map_some]
  simp only [State.kept, hstop, State.blockEnd, hblocks, hface, State.fontFaceEnd,
    Except.ok.injEq] at hend
  simp only [Draft.release, hheld]
  unfold Judge.wantsFont
  split at hend
  · next hwanted =>
    rw [if_pos (show j.references.fontWanted j.index held.family = true from hwanted)]
    have hdropped := Advance.drop_held (s := s) hnone m'.counts hleave
    refine hdropped.trans ?_
    have hput := Advance.putInside_out hdropped.toMatches rfl (alike_fontFace hgrows)
    rwa [hend] at hput
  · next hwanted =>
    rw [if_neg (show ¬ j.references.fontWanted j.index held.family = true from hwanted)]
    obtain ⟨rfl, rfl⟩ := Prod.mk.inj hend
    rw [List.append_nil]
    exact Advance.drop_held (s := s) hnone _ hleave

/-- A rule. It is skipped if none of its selectors is kept. -/
theorem advance_ruleset {earlier : List Event} {last : Event} (h : Matches s d)
    (hretained : s.retained = false) (hearlier : ∀ e ∈ earlier, e.kind = .selector)
    (hlast : last.kind = .rulesetStart) (hstop : stop.kind = .rulesetEnd)
    (hfits : ∀ n ∈ body, n.Fits .declarations) (hbody : Follows j source body)
    (hruns : Runs j source s (earlier ++ last :: (Node.eventsIn body ++ [stop])) os t) :
    Advance s d os t (Draft.write j source (.ruleset earlier last body stop) d) := by
  rw [Draft.write]
  rw [show earlier ++ last :: (Node.eventsIn body ++ [stop])
    = (earlier ++ [last]) ++ (Node.eventsIn body ++ [stop]) by simp] at hruns
  obtain ⟨m, here, later, hlist, hrest, rfl⟩ := runs_append_iff.1 hruns
  obtain ⟨m₀, before, after, rfl, hselects, hentered⟩ := selects_list h hearlier hlast hlist
  have hkept := hselects.retained
  have hadvance := hselects.advance
  rw [hretained, Bool.false_or] at hkept
  rw [hretained] at hadvance
  cases hempty : ((earlier ++ [last]).filter j.keeps).isEmpty with
  | true =>
    rw [hempty, Bool.not_true] at hkept
    rw [if_neg (by simp [hkept])] at hentered
    obtain ⟨counts, rfl, rfl⟩ := hentered
    obtain ⟨rfl, rfl⟩ := runs_skipped rfl hfits hstop hrest
    simp only [Draft.select, hempty, if_true, List.append_nil] at hadvance ⊢
    exact
      { hadvance with
        mode := rfl
        retained := hkept.trans hretained.symm }
  | false =>
    rw [hempty, Bool.not_false] at hkept
    rw [if_pos hkept] at hentered
    simp only [Draft.select, hempty, Bool.false_eq_true, if_false] at hadvance ⊢
    have hbegin : Advance s d before { m₀ with retained := false } _ :=
      { hadvance with retained := hretained.symm }
    have hopen := hbegin.trans (Advance.of_put hbegin.toMatches [.opens last] hentered)
    rw [Draft.putInside_put] at hopen
    obtain ⟨m', inside, final, hinside, hfinal, rfl⟩ := runs_append_iff.1 hrest
    have hinner := hbody hinside hopen.toMatches (hopen.retained.trans hretained)
    have hend := runs_singleton_iff.1 hfinal
    rw [step_keeping hinner.mode] at hend
    simp only [State.kept, hstop, Except.ok.injEq] at hend
    have hclose := Advance.of_put hinner.toMatches [.closes last] hend
    exact hopen.trans (hinner.trans hclose)

end

/-! ## A run follows the draft -/

mutual

theorem advance_write {j : Judge} {source : String} {ctx : Context} {s t : State} {d : Draft}
    {os : List Output} : ∀ {n : Node}, n.Fits ctx → Runs j source s n.events os t → Matches s d →
      s.retained = false → Advance s d os t (Draft.write j source n d)
  | .comment e, .comment kind, hruns, h, _ => by
    rw [Node.events_comment] at hruns
    exact advance_comment h kind (runs_singleton_iff.1 hruns)
  | .declaration e, .declaration kind, hruns, h, _ => by
    rw [Node.events_declaration] at hruns
    exact advance_declaration h kind (runs_singleton_iff.1 hruns)
  | .statement e, .statement kind, hruns, h, _ => by
    rw [Node.events_statement] at hruns
    exact advance_statement h kind (runs_singleton_iff.1 hruns)
  | .ruleset earlier last body stop, .ruleset hearlier hlast hstop fits, hruns, h, hretained => by
    rw [Node.events_ruleset] at hruns
    exact advance_ruleset h hretained hearlier hlast hstop fits (advance_writeIn fits) hruns
  | .block head body stop, .block hhead hstop fits, hruns, h, hretained => by
    rw [Node.events_block] at hruns
    have hbody : Follows j source body := advance_writeIn fits
    by_cases hkeyframes : isKeyframes head.atName
    · exact advance_keyframes h hhead hstop fits hkeyframes hruns
    · by_cases hconditional : isConditional head.atName
      · exact advance_conditional h hretained hhead hstop hkeyframes hconditional hbody hruns
      · by_cases hfontFace : isFontFace head.atName && d.held.isNone
        · exact advance_fontFace h hretained hhead hstop hkeyframes hconditional hfontFace hbody
            hruns
        · exact advance_other h hretained hhead hstop hkeyframes hconditional hfontFace hbody hruns

/-- A run over the events of some nodes writes what their draft holds. -/
theorem advance_writeIn {j : Judge} {source : String} {ctx : Context} :
    ∀ {ns : List Node}, (∀ n ∈ ns, n.Fits ctx) → Follows j source ns
  | [], _ => by
    intro hruns h _
    rw [Node.eventsIn_nil] at hruns
    obtain ⟨rfl, rfl⟩ := runs_nil_iff.1 hruns
    rw [Draft.writeIn]
    exact Advance.unchanged h h.mode rfl rfl rfl
  | n :: ns, fits => by
    intro hruns h hretained
    rw [Node.eventsIn_cons] at hruns
    obtain ⟨m, here, later, hn, hns, rfl⟩ := runs_append_iff.1 hruns
    have hfirst := advance_write (fits n List.mem_cons_self) hn h hretained
    have hothers := advance_writeIn (fun x hx => fits x (List.mem_cons_of_mem n hx)) hns
      hfirst.toMatches (hfirst.retained.trans hretained)
    rw [Draft.writeIn]
    exact hfirst.trans hothers

end

/-- A purge that succeeds adds the text of the draft to its sink. -/
theorem purge_text_marksOf {j : Judge} {source : String} {sink : Sink} {counts : Counts}
    (h : (purge j source sink).result = .ok counts) :
    (events source).error = none ∧
      (purge j source sink).sink.text
        = sink.text ++ textOf ((marksOf j source).map Mark.output) := by
  obtain ⟨herror, os, t, hruns, htext, -⟩ := exists_run_of_purge h
  refine ⟨herror, ?_⟩
  rw [← outline_events herror] at hruns
  have hstart : Matches (.initial source.utf8ByteSize) .start := ⟨rfl, rfl, rfl⟩
  have hadvance := advance_writeIn (outline_fits herror) hruns hstart rfl
  obtain ⟨ms, hms, halike⟩ := hadvance.out
  rw [htext, halike.textOf_eq, marksOf, hms]
  rfl

end StyleSieve.Purge
