import StyleSieve.Proofs.Css.Closing
import StyleSieve.Proofs.Purge.Fonts

/-!
# What a purge shows

Marks belong to events of the source. Some write the prelude of a conditional group, and some are of
substance: a selector, a statement, or the beginning of another block. `shows_written` says of each
node which groups its marks open and whether any of them is of substance. Comments, declarations and
groups themselves are not.
-/

namespace StyleSieve.Purge

open Css

/-! ## Groups and substance among marks -/

def Mark.owner : Mark → Event
  | text e _ => e
  | opens e => e
  | closes e => e

/-- A selector, a statement or the beginning of a block that is no conditional group. -/
def isSubstance (e : Event) : Bool :=
  match e.kind with
  | .selector | .rulesetStart | .statement => true
  | .blockStart => !isConditional e.atName
  | _ => false

def Mark.isSubstance : Mark → Bool
  | text e _ => Purge.isSubstance e
  | _ => false

theorem isSubstance_owner {m : Mark} (h : m.isSubstance = true) :
    Purge.isSubstance m.owner = true := by
  cases m with
  | text e o => exact h
  | opens e => simp [Mark.isSubstance] at h
  | closes e => simp [Mark.isSubstance] at h

/-- The group whose prelude is written. -/
def Mark.group? : Mark → Option Event
  | text e _ => if beginsGroup e then some e else none
  | _ => none

/-- The conditional groups whose preludes are written, in order. -/
def groupsOf (ms : List Mark) : List Event := ms.filterMap Mark.group?

theorem ends_of_isSubstance {e : Event} (h : isSubstance e = true) : e.kind.ends = false := by
  cases hkind : e.kind <;> simp_all [isSubstance, EventKind.ends]

theorem ends_of_beginsGroup {e : Event} (h : beginsGroup e = true) : e.kind.ends = false := by
  obtain ⟨hkind, -⟩ : e.kind = .blockStart ∧ isConditional e.atName = true := by
    simpa [beginsGroup] using h
  rw [hkind]
  rfl

theorem isSubstance_of_beginsGroup {e : Event} (h : beginsGroup e = true) :
    isSubstance e = false := by
  obtain ⟨hkind, hconditional⟩ : e.kind = .blockStart ∧ isConditional e.atName = true := by
    simpa [beginsGroup] using h
  rw [isSubstance, hkind]
  simp [hconditional]

/-! ## Groups that are opened -/

mutual

theorem opened_sublist_events (j : Judge) (inFont : Bool) : ∀ n : Node,
    (opened j inFont n).Sublist n.events
  | .comment e => by simp [opened]
  | .declaration e => by simp [opened]
  | .statement e => by simp [opened]
  | .ruleset earlier last body stop => by
    rw [opened, Node.events_ruleset]
    split
    · exact (((openedIn_sublist_eventsIn j inFont body).trans
        (List.sublist_append_left _ _)).cons _).trans (List.sublist_append_right _ _)
    · exact List.nil_sublist _
  | .block head body stop => by
    have hbody (inFont : Bool) : (openedIn j inFont body).Sublist (Node.eventsIn body ++ [stop]) :=
      (openedIn_sublist_eventsIn j inFont body).trans (List.sublist_append_left _ _)
    rw [opened, Node.events_block]
    split
    · exact List.nil_sublist _
    · split
      · split
        · exact (hbody inFont).cons_cons head
        · exact List.nil_sublist _
      · exact (hbody _).cons head

theorem openedIn_sublist_eventsIn (j : Judge) (inFont : Bool) : ∀ ns : List Node,
    (openedIn j inFont ns).Sublist (Node.eventsIn ns)
  | [] => by simp [openedIn]
  | n :: ns => by
    rw [openedIn, Node.eventsIn_cons]
    exact (opened_sublist_events j inFont n).append (openedIn_sublist_eventsIn j inFont ns)

end

mutual

/-- A group that is opened begins a block. -/
theorem exists_block_of_opened {j : Judge} {ctx : Context} {inFont : Bool} {g : Event} :
    ∀ {n : Node}, n.Fits ctx → g ∈ opened j inFont n →
      beginsGroup g = true ∧ ∃ body stop, .block g body stop ∈ n.nodes
  | .comment e, _ => fun h => by simp [opened] at h
  | .declaration e, _ => fun h => by simp [opened] at h
  | .statement e, _ => fun h => by simp [opened] at h
  | .ruleset earlier last body stop, .ruleset _ _ _ fits => fun h => by
    rw [opened] at h
    split at h
    · obtain ⟨hg, inner, stop', hblock⟩ := exists_block_of_openedIn fits h
      exact ⟨hg, inner, stop', by simp [Node.nodes, hblock]⟩
    · simp at h
  | .block head body stop, .block hhead _ fits => fun h => by
    have hinner (inFont : Bool) (h : g ∈ openedIn j inFont body) :
        beginsGroup g = true ∧
          ∃ inner stop', .block g inner stop' ∈ (Node.block head body stop).nodes := by
      obtain ⟨hg, inner, stop', hblock⟩ := exists_block_of_openedIn fits h
      exact ⟨hg, inner, stop', by simp [Node.nodes, hblock]⟩
    rw [opened] at h
    split at h
    · simp at h
    · split at h
      · next hconditional =>
        split at h
        · rcases List.mem_cons.1 h with rfl | h
          · exact ⟨by simp [beginsGroup, hhead, hconditional], body, stop, by simp [Node.nodes]⟩
          · exact hinner inFont h
        · simp at h
      · exact hinner _ h

theorem exists_block_of_openedIn {j : Judge} {ctx : Context} {inFont : Bool} {g : Event} :
    ∀ {ns : List Node}, (∀ n ∈ ns, n.Fits ctx) → g ∈ openedIn j inFont ns →
      beginsGroup g = true ∧ ∃ body stop, .block g body stop ∈ Node.nodesIn ns
  | [], _ => fun h => by simp [openedIn] at h
  | n :: ns, fits => fun h => by
    rw [openedIn, List.mem_append] at h
    rcases h with h | h
    · obtain ⟨hg, body, stop, hblock⟩ := exists_block_of_opened (fits n List.mem_cons_self) h
      exact ⟨hg, body, stop, by simp [hblock]⟩
    · obtain ⟨hg, body, stop, hblock⟩ :=
        exists_block_of_openedIn (fun m hm => fits m (List.mem_cons_of_mem n hm)) h
      exact ⟨hg, body, stop, by simp [hblock]⟩

end

/-! ## What marks show -/

/-- The marks belong to some of the events, they write the preludes of these groups, and they tell
whether there is anything of substance. -/
structure Shows (es groups : List Event) (substance : Bool) (ms : List Mark) : Prop where
  owned : ∀ m ∈ ms, m.owner ∈ es
  groups : groupsOf ms = groups
  substance : ms.any Mark.isSubstance = substance

namespace Shows

variable {es es' gs gs' heads kept : List Event} {b b' : Bool} {ms ms' : List Mark} {e : Event}
  {o : Output}

theorem nil : Shows es [] false [] := ⟨by simp, rfl, rfl⟩

theorem append (h : Shows es gs b ms) (h' : Shows es gs' b' ms') :
    Shows es (gs ++ gs') (b || b') (ms ++ ms') where
  owned m hm := (List.mem_append.1 hm).elim (h.owned m) (h'.owned m)
  groups := by rw [groupsOf, List.filterMap_append, ← h.groups, ← h'.groups]; rfl
  substance := by rw [List.any_append, h.substance, h'.substance]

theorem mono (h : Shows es gs b ms) (hsub : es ⊆ es') : Shows es' gs b ms :=
  ⟨fun m hm => hsub (h.owned m hm), h.groups, h.substance⟩

theorem opens (he : e ∈ es) : Shows es [] false [.opens e] := ⟨by simp [Mark.owner, he], rfl, rfl⟩

theorem closes (he : e ∈ es) : Shows es [] false [.closes e] := ⟨by simp [Mark.owner, he], rfl, rfl⟩

theorem text (he : e ∈ es) (hgroup : beginsGroup e = false) :
    Shows es [] (isSubstance e) [.text e o] where
  owned := by simp [Mark.owner, he]
  groups := by simp [groupsOf, Mark.group?, hgroup]
  substance := by simp [Mark.isSubstance]

theorem group (he : e ∈ es) (hgroup : beginsGroup e = true) :
    Shows es [e] false (headMarks e) where
  owned := by simp [headMarks, Mark.owner, he]
  groups := by simp [headMarks, groupsOf, Mark.group?, hgroup]
  substance := by simp [headMarks, Mark.isSubstance, isSubstance_of_beginsGroup hgroup]

theorem openings (hsub : heads ⊆ es) (hgroups : ∀ e ∈ heads, beginsGroup e = true) :
    Shows es heads false (openings heads) := by
  induction heads with
  | nil => exact nil
  | cons e heads ih =>
    have hrest := ih (fun x hx => hsub (List.mem_cons_of_mem e hx))
      (fun x hx => hgroups x (List.mem_cons_of_mem e hx))
    exact (group (hsub List.mem_cons_self) (hgroups e List.mem_cons_self)).append hrest

theorem selectorMarks (hsub : kept ⊆ es)
    (hkind : ∀ e ∈ kept, isSubstance e = true ∧ beginsGroup e = false) (comma : Bool) :
    Shows es [] (!kept.isEmpty) (selectorMarks comma kept) := by
  induction kept generalizing comma with
  | nil => exact nil
  | cons e kept ih =>
    obtain ⟨hsubstance, hgroup⟩ := hkind e List.mem_cons_self
    have he : e ∈ es := hsub List.mem_cons_self
    have htext (o : Output) : Shows es [] true [.text e o] := hsubstance ▸ text he hgroup
    have hrest := ih (fun x hx => hsub (List.mem_cons_of_mem e hx))
      (fun x hx => hkind x (List.mem_cons_of_mem e hx)) true
    have hlast := (htext (.text e.text)).append hrest
    cases comma with
    | false => exact hlast
    | true => exact (htext (.text ",")).append hlast

/-- A block that begins with what is of substance. -/
theorem wrap {begin : List Mark} (hbegin : Shows es [] true begin) (he : e ∈ es)
    (h : Shows es gs b ms) : Shows es gs true (begin ++ .opens e :: (ms ++ [.closes e])) := by
  have hblock := hbegin.append ((opens he).append (h.append (closes he)))
  rwa [Bool.true_or, List.append_nil] at hblock

end Shows

/-- What is kept of the selectors of a rule is of substance. -/
theorem shows_selectors {j : Judge} {earlier es : List Event} {last : Event}
    (hearlier : ∀ e ∈ earlier, e.kind = .selector) (hlast : last.kind = .rulesetStart)
    (hsub : earlier ++ [last] ⊆ es) (hkeeps : keepsRule j earlier last = true) :
    Shows es [] true (selectorMarks false ((earlier ++ [last]).filter j.keeps)) := by
  have hkind : ∀ e ∈ (earlier ++ [last]).filter j.keeps,
      isSubstance e = true ∧ beginsGroup e = false := by
    intro e he
    have hmem := (List.mem_filter.1 he).1
    simp only [List.mem_append, List.mem_singleton] at hmem
    rcases hmem with hmem | rfl
    · simp [isSubstance, beginsGroup, hearlier e hmem]
    · simp [isSubstance, beginsGroup, hlast]
  have hshows := Shows.selectorMarks (fun e he => hsub (List.mem_filter.1 he).1) hkind false
  rwa [isEmpty_filter_keeps, hkeeps] at hshows

/-- The beginning of a block that is no group is of substance. -/
theorem shows_head {es : List Event} {head : Event} {o : Output} (he : head ∈ es)
    (hhead : head.kind = .blockStart) (hconditional : ¬ isConditional head.atName = true) :
    Shows es [] true [.text head o] := by
  have hshows := Shows.text (o := o) he (by simp [beginsGroup, hconditional])
  simpa [isSubstance, hhead, hconditional] using hshows

mutual

/-- Inside the definition of a font the heads of groups are written elsewhere. -/
theorem shows_heldMarks (j : Judge) (source : String) {ctx : Context} : ∀ {n : Node}, n.Fits ctx →
    Shows n.events [] (stirs j true n) (heldMarks j source n)
  | .comment e, .comment kind => by
    have htext (o : Output) : Shows (Node.comment e).events [] false [.text e o] := by
      have hshows : Shows (Node.comment e).events [] (isSubstance e) [.text e o] :=
        .text (by simp) (by simp [beginsGroup, kind])
      simpa [isSubstance, kind] using hshows
    rw [heldMarks, stirs]
    split
    · exact (htext _).append (htext _)
    · exact .nil
  | .declaration e, .declaration kind => by
    have hshows : Shows (Node.declaration e).events [] (isSubstance e)
        [.text e (.declaration e.data e.values)] :=
      .text (by simp) (by rcases kind with kind | kind <;> simp [beginsGroup, kind])
    rw [heldMarks, stirs]
    rcases kind with kind | kind <;> simpa [isSubstance, kind] using hshows
  | .statement e, .statement kind => by
    have htext (o : Output) : Shows (Node.statement e).events [] true [.text e o] := by
      have hshows : Shows (Node.statement e).events [] (isSubstance e) [.text e o] :=
        .text (by simp) (by simp [beginsGroup, kind])
      simpa [isSubstance, kind] using hshows
    rw [heldMarks, stirs]
    exact (htext _).append (htext _)
  | .ruleset earlier last body stop, .ruleset hearlier hlast hstop fits => by
    have hbody := (shows_heldMarksIn j source fits).mono
      (Node.body_subset_events (.ruleset earlier last body stop))
    rw [heldMarks, stirs]
    split
    · next hkeeps =>
      rw [hkeeps]
      have hsub : earlier ++ [last] ⊆ (Node.ruleset earlier last body stop).events := by simp
      have hselectors := shows_selectors hearlier hlast hsub hkeeps
      exact .wrap hselectors (by simp) hbody
    · next hkeeps =>
      rw [Bool.not_eq_true] at hkeeps
      rw [hkeeps]
      exact .nil
  | .block head body stop, .block hhead hstop fits => by
    have hmem : head ∈ (Node.block head body stop).events := by simp
    have hbody := (shows_heldMarksIn j source fits).mono
      (Node.body_subset_events (.block head body stop))
    rw [heldMarks, stirs]
    split
    · next hkeyframes =>
      split
      · next hwants =>
        rw [hwants]
        exact shows_head hmem hhead (fun h => not_keyframes_of_conditional h hkeyframes)
      · next hwants =>
        rw [Bool.not_eq_true] at hwants
        rw [hwants]
        exact .nil
    · split
      · split
        · have hclosed := hbody.append (Shows.closes hmem)
          rwa [Bool.or_false] at hclosed
        · rwa [List.append_nil]
      · next hconditional =>
        rw [Bool.not_true, Bool.and_false, if_neg Bool.false_ne_true, List.append_assoc]
        exact .wrap (shows_head hmem hhead hconditional) hmem hbody

theorem shows_heldMarksIn (j : Judge) (source : String) {ctx : Context} : ∀ {ns : List Node},
    (∀ n ∈ ns, n.Fits ctx) →
      Shows (Node.eventsIn ns) [] (stirsIn j true ns) (heldMarksIn j source ns)
  | [], _ => by
    rw [heldMarksIn, stirsIn]
    exact .nil
  | n :: ns, fits => by
    rw [heldMarksIn, stirsIn, Node.eventsIn_cons]
    exact ((shows_heldMarks j source (fits n List.mem_cons_self)).mono
        (List.subset_append_left _ _)).append
      ((shows_heldMarksIn j source fun m hm => fits m (List.mem_cons_of_mem n hm)).mono
        (List.subset_append_right _ _))

end

/-! ## Outside the definition of a font -/

mutual

/-- Something of substance is written for a node. -/
def holds (j : Judge) : Node → Bool
  | .comment _ => false
  | .declaration _ => false
  | .statement _ => true
  | .ruleset earlier last _ _ => keepsRule j earlier last
  | .block head body _ =>
    if isKeyframes head.atName then j.wantsAnimation head
    else if isConditional head.atName then holdsIn j body
    else if isFontFace head.atName then j.wantsFont (lastFamily j body)
    else true

def holdsIn (j : Judge) : List Node → Bool
  | [] => false
  | n :: ns => holds j n || holdsIn j ns

end

mutual

theorem stirs_written (j : Judge) (source : String) : ∀ n : Node,
    (written j source n).stirs = stirs j false n
  | .comment e => by rw [written, stirs]; rfl
  | .declaration e => by rw [written, stirs]; rfl
  | .statement e => by rw [written, stirs]; rfl
  | .ruleset earlier last body stop => by
    rw [written, stirs]
    cases keepsRule j earlier last <;> rfl
  | .block head body stop => by
    rw [written, stirs]
    split
    · cases j.wantsAnimation head <;> rfl
    · split
      · rw [Written.stirs_group, stirs_writtenIn j source body]
      · rw [Bool.not_false, Bool.and_true]
        split
        · cases stirsIn j true body || j.wantsFont (lastFamily j body) <;> rfl
        · rfl

theorem stirs_writtenIn (j : Judge) (source : String) : ∀ ns : List Node,
    (writtenIn j source ns).stirs = stirsIn j false ns
  | [] => by rw [writtenIn, stirsIn]; rfl
  | n :: ns => by
    rw [writtenIn, stirsIn, Written.stirs_append, stirs_written j source n,
      stirs_writtenIn j source ns]

end

/-- What comes before the groups around are opened is of no substance and opens none. -/
structure Written.Shows (es groups : List Event) (substance : Bool) (w : Written) : Prop where
  lead : Purge.Shows es [] false w.lead
  rest : Purge.Shows es groups substance (w.rest.getD [])

namespace Written.Shows

variable {es es' gs gs' : List Event} {b b' : Bool} {w w' : Written} {ms : List Mark} {e : Event}

theorem marks (h : w.Shows es gs b) : Purge.Shows es gs b w.marks := h.lead.append h.rest

theorem mono (h : w.Shows es gs b) (hsub : es ⊆ es') : w.Shows es' gs b :=
  ⟨h.lead.mono hsub, h.rest.mono hsub⟩

theorem nothing : Written.nothing.Shows es [] false := ⟨.nil, .nil⟩

theorem inside (h : Purge.Shows es gs b ms) : (Written.inside ms).Shows es gs b := ⟨.nil, h⟩

theorem append (h : w.Shows es gs b) (h' : w'.Shows es gs' b') :
    (w.append w').Shows es (gs ++ gs') (b || b') := by
  rcases w with ⟨lead, _ | rest⟩
  · obtain rfl : [] = gs := h.rest.groups
    obtain rfl : false = b := h.rest.substance
    exact ⟨h.lead.append h'.lead, h'.rest⟩
  · exact ⟨h.lead, h.rest.append h'.marks⟩

theorem group (h : w.Shows es gs b) (he : e ∈ es) (hgroup : beginsGroup e = true) :
    (w.group e).Shows es (if w.stirs then e :: gs else []) b := by
  rcases w with ⟨lead, _ | rest⟩
  · obtain rfl : [] = gs := h.rest.groups
    exact h
  · have hrest := ((Purge.Shows.group he hgroup).append h.rest).append (.closes he)
    rw [Bool.or_false, List.append_nil] at hrest
    exact ⟨h.lead, hrest⟩

end Written.Shows

/-- The definition of a font shows the groups that are opened in it, also if it is dropped. -/
theorem shows_writtenFont (j : Judge) (source : String) {ctx : Context} {es : List Event}
    {head : Event} {body : List Node} (fits : ∀ n ∈ body, n.Fits ctx) (hmem : head ∈ es)
    (hsub : Node.eventsIn body ⊆ es) (hhead : head.kind = .blockStart)
    (hconditional : ¬ isConditional head.atName = true) :
    Purge.Shows es (openedIn j true body) (j.wantsFont (lastFamily j body))
      (writtenFont j source head body) := by
  have hgroups : Purge.Shows es (openedIn j true body) false (openings (openedIn j true body)) :=
    .openings (fun g hg => hsub ((openedIn_sublist_eventsIn j true body).subset hg))
      fun g hg => (exists_block_of_openedIn fits hg).1
  rw [writtenFont]
  split
  · next hwants =>
    have hbody := (shows_heldMarksIn j source fits).mono hsub
    have hdefinition := Purge.Shows.wrap (shows_head (o := .text head.prelude) hmem hhead
      hconditional) hmem hbody
    have hall := hgroups.append hdefinition
    rw [List.append_nil, Bool.false_or] at hall
    rw [hwants, List.append_assoc (headMarks head)]
    exact hall
  · next hwants =>
    rw [Bool.not_eq_true] at hwants
    rwa [hwants, List.append_nil]

mutual

/-- What is written for a node shows the groups that are opened in it. -/
theorem shows_written (j : Judge) (source : String) {ctx : Context} : ∀ {n : Node}, n.Fits ctx →
    (written j source n).Shows n.events (opened j false n) (holds j n)
  | .comment e, .comment kind => by
    have hopened : opened j false (.comment e) = [] := by simp [opened]
    have hfits : Node.Fits ctx (.comment e) := .comment kind
    have hshows := shows_heldMarks j source hfits
    rw [heldMarks, stirs] at hshows
    rw [written, holds, hopened]
    exact ⟨hshows, .nil⟩
  | .declaration e, .declaration kind => by
    have hopened : opened j false (.declaration e) = [] := by simp [opened]
    have hshows := shows_heldMarks j source (Node.Fits.declaration kind)
    rw [heldMarks, stirs] at hshows
    rw [written, holds, hopened]
    exact ⟨hshows, .nil⟩
  | .statement e, .statement kind => by
    have hopened : opened j false (.statement e) = [] := by simp [opened]
    have hfits : Node.Fits ctx (.statement e) := .statement kind
    have hshows := shows_heldMarks j source hfits
    rw [heldMarks, stirs] at hshows
    rw [written, holds, hopened]
    exact .inside hshows
  | .ruleset earlier last body stop, .ruleset hearlier hlast hstop fits => by
    have hbody := (shows_writtenIn j source fits).mono
      (Node.body_subset_events (.ruleset earlier last body stop))
    rw [written, opened, holds]
    split
    · next hkeeps =>
      rw [hkeeps]
      have hsub : earlier ++ [last] ⊆ (Node.ruleset earlier last body stop).events := by simp
      have hselectors := shows_selectors hearlier hlast hsub hkeeps
      exact .inside (.wrap hselectors (by simp) hbody.marks)
    · next hkeeps =>
      rw [Bool.not_eq_true] at hkeeps
      rw [hkeeps]
      exact .nothing
  | .block head body stop, .block hhead hstop fits => by
    have hmem : head ∈ (Node.block head body stop).events := by simp
    have hbody := (shows_writtenIn j source fits).mono
      (Node.body_subset_events (.block head body stop))
    rw [written, opened, holds]
    split
    · next hkeyframes =>
      split
      · next hwants =>
        rw [hwants]
        exact .inside (shows_head hmem hhead fun h => not_keyframes_of_conditional h hkeyframes)
      · next hwants =>
        rw [Bool.not_eq_true] at hwants
        rw [hwants]
        exact .nothing
    · split
      · next hconditional =>
        have hgroup := hbody.group hmem (by simp [beginsGroup, hhead, hconditional])
        rwa [stirs_writtenIn] at hgroup
      · next hconditional =>
        split
        · next hfont =>
          rw [hfont, Bool.or_true]
          split
          · exact .inside (shows_writtenFont j source fits hmem (fun e he => by simp [he]) hhead
              hconditional)
          · next hstirs =>
            rw [Bool.not_eq_true, Bool.or_eq_false_iff] at hstirs
            rw [openedIn_eq_nil hstirs.1, hstirs.2]
            exact .nothing
        · next hfont =>
          rw [Bool.not_eq_true] at hfont
          rw [hfont, Bool.or_false, List.append_assoc]
          exact .inside (.wrap (shows_head hmem hhead hconditional) hmem hbody.marks)

theorem shows_writtenIn (j : Judge) (source : String) {ctx : Context} : ∀ {ns : List Node},
    (∀ n ∈ ns, n.Fits ctx) →
      (writtenIn j source ns).Shows (Node.eventsIn ns) (openedIn j false ns) (holdsIn j ns)
  | [], _ => by
    rw [writtenIn, openedIn, holdsIn]
    exact .nothing
  | n :: ns, fits => by
    rw [writtenIn, openedIn, holdsIn, Node.eventsIn_cons]
    exact ((shows_written j source (fits n List.mem_cons_self)).mono
        (List.subset_append_left _ _)).append
      ((shows_writtenIn j source fun m hm => fits m (List.mem_cons_of_mem n hm)).mono
        (List.subset_append_right _ _))

end

end StyleSieve.Purge
