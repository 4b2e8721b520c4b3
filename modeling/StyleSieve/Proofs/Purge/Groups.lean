import StyleSieve.Proofs.Purge.Substance

/-!
# Conditional groups that are written

Which conditional groups a purge writes, and whether anything stands in them. `groups_of_purge` says
that their preludes are written in the order of the source, none twice and none before a group
around it, and that a group which is written is filled (`Filled`): between its brackets stands a
selector, a statement or another block from inside it. The last part has one exception, which it
states exactly. The definition of a font that is dropped may have opened groups, those around it and
those in it, before it was known to be dropped (`hollowsIn`).
-/

namespace StyleSieve.Purge

open Css

/-! ## Groups among the marks -/

/-- The group is written, with something of substance from inside it between its brackets. -/
def Surrounds (ms : List Mark) (g : Event) (body : List Node) : Prop :=
  ∃ before inside after, ms = before ++ headMarks g ++ (inside ++ .closes g :: after) ∧
    ∃ m ∈ inside, m.isSubstance = true ∧ m.owner ∈ Node.eventsIn body

/-- The group is that of a block among the nodes, and something of substance from inside the block
stands between its brackets. -/
def Filled (nodes : List Node) (ms : List Mark) (g : Event) : Prop :=
  ∃ body stop, .block g body stop ∈ Node.nodesIn nodes ∧ Surrounds ms g body

mutual

/-- The definition of a font that is dropped has opened a group in it, or the groups around it,
one of which nothing else holds. -/
def hollows (j : Judge) : Node → Bool
  | .ruleset earlier last body _ => keepsRule j earlier last && hollowsIn j body
  | .block head body _ =>
    if isKeyframes head.atName then false
    else if isConditional head.atName then
      (stirsIn j false body && !holdsIn j body) || hollowsIn j body
    else if isFontFace head.atName then
      !j.wantsFont (lastFamily j body) && opensGroupIn j body
    else hollowsIn j body
  | _ => false

def hollowsIn (j : Judge) : List Node → Bool
  | [] => false
  | n :: ns => hollows j n || hollowsIn j ns

end

/-! ## Groups around a group -/

mutual

/-- Where a group is opened, the groups around it are opened too. -/
theorem encloses_opened {j : Judge} {inFont : Bool} {g g' stop : Event} {body : List Node}
    (hg : beginsGroup g = true) (hg' : g'.kind.ends = false) (hinside : g' ∈ Node.eventsIn body) :
    ∀ {n : Node}, Node.Distinct [n] → .block g body stop ∈ n.nodes → g' ∈ opened j inFont n →
      g ∈ opened j inFont n
  | .comment e => fun _ h => by simp [Node.nodes] at h
  | .declaration e => fun _ h => by simp [Node.nodes] at h
  | .statement e => fun _ h => by simp [Node.nodes] at h
  | .ruleset earlier last inner stop => fun hdistinct h hopened => by
    simp only [Node.nodes, List.mem_cons, reduceCtorEq, false_or] at h
    rw [opened] at hopened ⊢
    split at hopened
    · next hkeeps =>
      rw [if_pos hkeeps]
      exact encloses_openedIn hg hg' hinside hdistinct.inside h hopened
    · simp at hopened
  | .block first inner last => fun hdistinct h hopened => by
    simp only [Node.nodes, List.mem_cons, Node.block.injEq] at h
    rw [opened] at hopened ⊢
    split at hopened
    · simp at hopened
    · next hkeyframes =>
      rw [if_neg hkeyframes]
      split at hopened
      · next hconditional =>
        rw [if_pos hconditional]
        split at hopened
        · next hstirs =>
          rw [if_pos hstirs]
          rcases h with ⟨rfl, -, -⟩ | h
          · exact List.mem_cons_self
          -- The prelude of `first` cannot be the one inside: events have their own places.
          · have hne : g' ≠ first := by
              rintro rfl
              exact hdistinct.head_not_mem hg' (Node.mem_eventsIn_of_mem_body h hinside)
            have hinner := (List.mem_cons.1 hopened).resolve_left hne
            exact List.mem_cons_of_mem first
              (encloses_openedIn hg hg' hinside hdistinct.inside h hinner)
        · simp at hopened
      · next hconditional =>
        rw [if_neg hconditional]
        rcases h with ⟨rfl, -, -⟩ | h
        · simp [beginsGroup, hconditional] at hg
        · exact encloses_openedIn hg hg' hinside hdistinct.inside h hopened

theorem encloses_openedIn {j : Judge} {inFont : Bool} {g g' stop : Event} {body : List Node}
    (hg : beginsGroup g = true) (hg' : g'.kind.ends = false) (hinside : g' ∈ Node.eventsIn body) :
    ∀ {ns : List Node}, Node.Distinct ns → .block g body stop ∈ Node.nodesIn ns →
      g' ∈ openedIn j inFont ns → g ∈ openedIn j inFont ns
  | [] => fun _ h => by simp at h
  | n :: ns => fun hdistinct h hopened => by
    rw [Node.nodesIn_cons, List.mem_append] at h
    rw [openedIn, List.mem_append] at hopened ⊢
    have hapart : g' ∈ n.events → g' ∉ Node.eventsIn ns := hdistinct.not_mem_others hg'
    rcases h with h | h
    · have hfirst : g' ∈ n.events := (Node.events_sublist_of_mem_nodes h).subset (by simp [hinside])
      refine .inl (encloses_opened hg hg' hinside hdistinct.first h (hopened.resolve_right ?_))
      exact fun hrest => hapart hfirst ((openedIn_sublist_eventsIn j inFont ns).subset hrest)
    · have hothers : g' ∈ Node.eventsIn ns := Node.mem_eventsIn_of_mem_body h hinside
      refine .inr (encloses_openedIn hg hg' hinside hdistinct.others h (hopened.resolve_left ?_))
      exact fun hfirst => hapart ((opened_sublist_events j inFont n).subset hfirst) hothers

end

/-! ## Groups that are filled -/

/-- The closing bracket of the group is written, and something of substance from inside it before.
-/
def ClosedAfter (ms : List Mark) (g : Event) (body : List Node) : Prop :=
  ∃ inside after, ms = inside ++ .closes g :: after ∧
    ∃ m ∈ inside, m.isSubstance = true ∧ m.owner ∈ Node.eventsIn body

section

variable {ms : List Mark} {g : Event} {body : List Node}

theorem ClosedAfter.around (h : ClosedAfter ms g body) (before after : List Mark) :
    ClosedAfter (before ++ ms ++ after) g body := by
  obtain ⟨inside, rest, rfl, m, hm, hsubstance⟩ := h
  exact ⟨before ++ inside, rest ++ after, by simp, m, List.mem_append_right _ hm, hsubstance⟩

theorem Surrounds.around (h : Surrounds ms g body) (before after : List Mark) :
    Surrounds (before ++ ms ++ after) g body := by
  obtain ⟨front, inside, rest, rfl, hm⟩ := h
  exact ⟨before ++ front, inside, rest ++ after, by simp, hm⟩

theorem Shows.exists_mem {es gs : List Event} (h : Shows es gs true ms) :
    ∃ m ∈ ms, m.isSubstance = true ∧ m.owner ∈ es := by
  obtain ⟨m, hm, hsubstance⟩ := List.any_eq_true.1 h.substance
  exact ⟨m, hm, hsubstance, h.owned m hm⟩

end

mutual

/-- A group that is opened in the definition of a font is closed there, after what it was opened
for. -/
theorem closedAfter_heldMarks {j : Judge} (source : String) {ctx : Context} {g : Event} :
    ∀ {n : Node}, n.Fits ctx → g ∈ opened j true n →
      ∃ body stop, .block g body stop ∈ n.nodes ∧ ClosedAfter (heldMarks j source n) g body
  | .comment e, _ => fun h => by simp [opened] at h
  | .declaration e, _ => fun h => by simp [opened] at h
  | .statement e, _ => fun h => by simp [opened] at h
  | .ruleset earlier last body stop, .ruleset _ _ _ fits => fun h => by
    rw [opened] at h
    split at h
    · next hkeeps =>
      obtain ⟨inner, stop', hblock, hclosed⟩ := closedAfter_heldMarksIn source fits h
      refine ⟨inner, stop', by simp [Node.nodes, hblock], ?_⟩
      rw [heldMarks, if_pos hkeeps]
      have hall := hclosed.around
        (selectorMarks false ((earlier ++ [last]).filter j.keeps) ++ [.opens last]) [.closes last]
      rwa [List.append_assoc, List.append_assoc, List.singleton_append] at hall
    · simp at h
  | .block head body stop, .block _ _ fits => fun h => by
    rw [opened] at h
    rw [heldMarks]
    split at h
    · simp at h
    · next hkeyframes =>
      rw [if_neg hkeyframes]
      split at h
      · next hconditional =>
        rw [if_pos hconditional]
        split at h
        · next hstirs =>
          rw [if_pos hstirs]
          rcases List.mem_cons.1 h with rfl | h
          · have hbody := shows_heldMarksIn j source fits
            rw [hstirs] at hbody
            exact ⟨body, stop, by simp [Node.nodes], heldMarksIn j source body, [], rfl,
              hbody.exists_mem⟩
          · obtain ⟨inner, stop', hblock, hclosed⟩ := closedAfter_heldMarksIn source fits h
            exact ⟨inner, stop', by simp [Node.nodes, hblock], hclosed.around [] [.closes head]⟩
        · simp at h
      · next hconditional =>
        rw [if_neg hconditional]
        obtain ⟨inner, stop', hblock, hclosed⟩ := closedAfter_heldMarksIn source fits h
        exact ⟨inner, stop', by simp [Node.nodes, hblock],
          hclosed.around (headMarks head) [.closes head]⟩

theorem closedAfter_heldMarksIn {j : Judge} (source : String) {ctx : Context} {g : Event} :
    ∀ {ns : List Node}, (∀ n ∈ ns, n.Fits ctx) → g ∈ openedIn j true ns →
      ∃ body stop, .block g body stop ∈ Node.nodesIn ns ∧
        ClosedAfter (heldMarksIn j source ns) g body
  | [], _ => fun h => by simp [openedIn] at h
  | n :: ns, fits => fun h => by
    rw [openedIn, List.mem_append] at h
    rw [heldMarksIn]
    rcases h with h | h
    · obtain ⟨body, stop, hblock, hclosed⟩ :=
        closedAfter_heldMarks source (fits n List.mem_cons_self) h
      exact ⟨body, stop, by simp [hblock],
        by simpa using hclosed.around [] (heldMarksIn j source ns)⟩
    · obtain ⟨body, stop, hblock, hclosed⟩ :=
        closedAfter_heldMarksIn source (fun m hm => fits m (List.mem_cons_of_mem n hm)) h
      exact ⟨body, stop, by simp [hblock], by simpa using hclosed.around (heldMarks j source n) []⟩

end

theorem opensGroupIn_iff {j : Judge} {ns : List Node} :
    opensGroupIn j ns = true ↔ ∃ g, g ∈ openedIn j true ns := by
  rw [← List.isEmpty_eq_false_iff_exists_mem, isEmpty_openedIn, Bool.not_eq_false']

/-- Groups that are opened in the definition of a font stand before it and are closed in it. -/
theorem ClosedAfter.surrounds {ms rest : List Mark} {g : Event} {body : List Node}
    {heads : List Event} (h : ClosedAfter ms g body) (hg : g ∈ heads) (begin : List Mark) :
    Surrounds (openings heads ++ (begin ++ ms ++ rest)) g body := by
  obtain ⟨inside, after, rfl, m, hm, hsubstance⟩ := h
  obtain ⟨front, back, rfl⟩ := List.append_of_mem hg
  have hopenings : openings (front ++ g :: back)
      = openings front ++ headMarks g ++ openings back := by
    rw [openings_append, List.append_assoc]
    rfl
  refine ⟨openings front, openings back ++ begin ++ inside, after ++ rest, ?_, m,
    List.mem_append_right _ hm, hsubstance⟩
  simp [hopenings]

/-- What has its brackets in a body has them in the rule or the block around. -/
theorem Surrounds.wrapped {w : Written} {g : Event} {body : List Node}
    (h : Surrounds (w.rest.getD []) g body) (begin : List Mark) (e : Event) :
    Surrounds (begin ++ w.marks ++ [.closes e]) g body := by
  have hall := h.around (begin ++ w.lead) [.closes e]
  rwa [List.append_assoc begin] at hall

theorem rest_group {w : Written} (h : w.stirs = true) (head : Event) :
    (w.group head).rest.getD [] = headMarks head ++ w.rest.getD [] ++ [.closes head] := by
  obtain ⟨ms, hms⟩ := Option.isSome_iff_exists.1 h
  rw [Written.group, hms, Option.map_some, Option.getD_some, Option.getD_some]

theorem rest_append (w w' : Written) : ∃ between,
    (w.append w').rest.getD [] = w.rest.getD [] ++ between ++ w'.rest.getD [] := by
  rcases w with ⟨lead, _ | rest⟩
  · exact ⟨[], by simp [Written.append]⟩
  · exact ⟨w'.lead, by simp [Written.append, Written.marks]⟩

mutual

/-- A group that is opened is filled, unless it is hollow. -/
theorem surrounds_written {j : Judge} (source : String) {ctx : Context} {g : Event} :
    ∀ {n : Node}, n.Fits ctx → hollows j n = false → g ∈ opened j false n →
      ∃ body stop, .block g body stop ∈ n.nodes ∧
        Surrounds ((written j source n).rest.getD []) g body
  | .comment e, _ => fun _ h => by simp [opened] at h
  | .declaration e, _ => fun _ h => by simp [opened] at h
  | .statement e, _ => fun _ h => by simp [opened] at h
  | .ruleset earlier last body stop, .ruleset _ _ _ fits => fun hhollow h => by
    rw [opened] at h
    rw [hollows] at hhollow
    split at h
    · next hkeeps =>
      rw [hkeeps, Bool.true_and] at hhollow
      obtain ⟨inner, stop', hblock, hsurrounds⟩ := surrounds_writtenIn source fits hhollow h
      refine ⟨inner, stop', by simp [Node.nodes, hblock], ?_⟩
      rw [written, if_pos hkeeps, Written.inside, Option.getD_some]
      have hall := hsurrounds.wrapped
        (selectorMarks false ((earlier ++ [last]).filter j.keeps) ++ [.opens last]) last
      rwa [List.append_assoc, List.append_assoc, List.singleton_append] at hall
    · simp at h
  | .block head body stop, .block hhead _ fits => fun hhollow h => by
    rw [opened] at h
    rw [hollows] at hhollow
    rw [written]
    split at h
    · simp at h
    · next hkeyframes =>
      rw [if_neg hkeyframes] at hhollow ⊢
      split at h
      · next hconditional =>
        rw [if_pos hconditional] at hhollow ⊢
        rw [Bool.or_eq_false_iff] at hhollow
        split at h
        · next hstirs =>
          rw [hstirs, Bool.true_and, Bool.not_eq_false'] at hhollow
          rw [← stirs_writtenIn j source] at hstirs
          rw [rest_group hstirs]
          rcases List.mem_cons.1 h with rfl | h
          · have hbody := (shows_writtenIn j source fits).rest
            rw [hhollow.1] at hbody
            exact ⟨body, stop, by simp [Node.nodes], [], (writtenIn j source body).rest.getD [], [],
              by simp, hbody.exists_mem⟩
          · obtain ⟨inner, stop', hblock, hsurrounds⟩ := surrounds_writtenIn source fits hhollow.2 h
            exact ⟨inner, stop', by simp [Node.nodes, hblock],
              hsurrounds.around (headMarks head) [.closes head]⟩
        · simp at h
      · next hconditional =>
        rw [if_neg hconditional] at hhollow ⊢
        split at hhollow
        · next hfont =>
          rw [hfont, Bool.or_true] at h
          have hopens : opensGroupIn j body = true := opensGroupIn_iff.2 ⟨g, h⟩
          have hwants : j.wantsFont (lastFamily j body) = true := by simpa [hopens] using hhollow
          -- The preludes went out before the definition, and their brackets are closed in it.
          obtain ⟨inner, stop', hblock, hclosed⟩ := closedAfter_heldMarksIn source fits h
          refine ⟨inner, stop', by simp [Node.nodes, hblock], ?_⟩
          rw [if_pos hfont, if_pos (by rw [hwants, Bool.or_true]), Written.inside, Option.getD_some,
            writtenFont, if_pos hwants]
          exact hclosed.surrounds h (headMarks head)
        · next hfont =>
          rw [if_neg hfont]
          rw [Bool.not_eq_true] at hfont
          rw [hfont, Bool.or_false] at h
          obtain ⟨inner, stop', hblock, hsurrounds⟩ := surrounds_writtenIn source fits hhollow h
          exact ⟨inner, stop', by simp [Node.nodes, hblock],
            hsurrounds.wrapped (headMarks head) head⟩

theorem surrounds_writtenIn {j : Judge} (source : String) {ctx : Context} {g : Event} :
    ∀ {ns : List Node}, (∀ n ∈ ns, n.Fits ctx) → hollowsIn j ns = false → g ∈ openedIn j false ns →
      ∃ body stop, .block g body stop ∈ Node.nodesIn ns ∧
        Surrounds ((writtenIn j source ns).rest.getD []) g body
  | [], _ => fun _ h => by simp [openedIn] at h
  | n :: ns, fits => fun hhollow h => by
    rw [openedIn, List.mem_append] at h
    rw [hollowsIn, Bool.or_eq_false_iff] at hhollow
    obtain ⟨between, hrest⟩ := rest_append (written j source n) (writtenIn j source ns)
    rw [writtenIn, hrest]
    rcases h with h | h
    · obtain ⟨body, stop, hblock, hsurrounds⟩ :=
        surrounds_written source (fits n List.mem_cons_self) hhollow.1 h
      refine ⟨body, stop, by simp [hblock], ?_⟩
      simpa using hsurrounds.around [] (between ++ (writtenIn j source ns).rest.getD [])
    · obtain ⟨body, stop, hblock, hsurrounds⟩ :=
        surrounds_writtenIn source (fun m hm => fits m (List.mem_cons_of_mem n hm)) hhollow.2 h
      refine ⟨body, stop, by simp [hblock], ?_⟩
      simpa using hsurrounds.around ((written j source n).rest.getD [] ++ between) []

end

/-! ## Groups that are not -/

/-- The group is opened, and nothing of substance from inside it is written. -/
def Empty (opened : List Event) (ms : List Mark) (g : Event) (body : List Node) : Prop :=
  g ∈ opened ∧ ∀ m ∈ ms, m.isSubstance = true → m.owner ∉ Node.eventsIn body

/-- More groups, and more marks that belong elsewhere. -/
theorem Empty.grow {gs gs' : List Event} {ms ms' : List Mark} {g : Event} {body : List Node}
    (h : Empty gs ms g body) (hsub : gs ⊆ gs')
    (hapart : ∀ m ∈ ms', m.isSubstance = true → m ∈ ms ∨ m.owner ∉ Node.eventsIn body) :
    Empty gs' ms' g body :=
  ⟨hsub h.1, fun m hm hsubstance =>
    (hapart m hm hsubstance).elim (h.2 m · hsubstance) id⟩

/-- Brackets are of no substance. -/
theorem mem_of_wrapped {begin ms : List Mark} {e : Event} {m : Mark}
    (h : m ∈ begin ++ .opens e :: (ms ++ [.closes e])) (hsubstance : m.isSubstance = true) :
    m ∈ begin ∨ m ∈ ms := by
  simp only [List.mem_append, List.mem_cons, List.not_mem_nil, or_false] at h
  rcases h with h | rfl | h | rfl
  · exact .inl h
  · simp [Mark.isSubstance] at hsubstance
  · exact .inr h
  · simp [Mark.isSubstance] at hsubstance

theorem mem_of_group {w : Written} {e : Event} {m : Mark} (hgroup : beginsGroup e = true)
    (h : m ∈ (w.group e).marks) (hsubstance : m.isSubstance = true) : m ∈ w.marks := by
  rcases w with ⟨lead, _ | rest⟩
  · exact h
  · have hmarks : (Written.group e ⟨lead, some rest⟩).marks
        = (lead ++ [.text e (.text e.prelude)]) ++ .opens e :: (rest ++ [.closes e]) := by
      simp [Written.group, Written.marks, headMarks]
    rw [hmarks] at h
    rcases mem_of_wrapped h hsubstance with h | h
    · rcases List.mem_append.1 h with h | h
      · exact List.mem_append_left _ h
      · obtain rfl := List.mem_singleton.1 h
        rw [Mark.isSubstance, isSubstance_of_beginsGroup hgroup] at hsubstance
        exact absurd hsubstance Bool.false_ne_true
    · exact List.mem_append_right _ h

theorem stirsIn_of_mem {j : Judge} {inFont : Bool} {ns : List Node} {g : Event}
    (h : g ∈ openedIn j inFont ns) : stirsIn j inFont ns = true := by
  cases hstirs : stirsIn j inFont ns with
  | true => rfl
  | false =>
    rw [openedIn_eq_nil hstirs] at h
    exact absurd h List.not_mem_nil

mutual

/-- Where a definition of a font that is dropped leaves a group hollow, nothing is in the group. -/
theorem exists_empty_of_hollows {j : Judge} (source : String) {ctx : Context} : ∀ {n : Node},
    n.Fits ctx → Node.Distinct [n] → hollows j n = true →
      ∃ g body stop, .block g body stop ∈ n.nodes ∧
        Empty (opened j false n) (written j source n).marks g body
  | .comment e, _ => fun _ h => by simp [hollows] at h
  | .declaration e, _ => fun _ h => by simp [hollows] at h
  | .statement e, _ => fun _ h => by simp [hollows] at h
  | .ruleset earlier last body stop, .ruleset hearlier hlast _ fits => fun hdistinct h => by
    rw [hollows, Bool.and_eq_true] at h
    obtain ⟨g, inner, stop', hblock, hempty⟩ :=
      exists_empty_of_hollowsIn source fits hdistinct.inside h.2
    rw [opened, written, if_pos h.1, if_pos h.1, Written.marks_inside]
    refine ⟨g, inner, stop', by simp [Node.nodes, hblock],
      hempty.grow (List.Subset.refl _) fun m hm hsubstance => ?_⟩
    refine (mem_of_wrapped hm hsubstance).symm.imp id fun hselector hmem => ?_
    have howner : m.owner ∈ earlier ++ [last] :=
      (shows_selectors hearlier hlast (List.Subset.refl _) h.1).owned m hselector
    have hsplit : Node.eventsIn [.ruleset earlier last body stop]
        = (earlier ++ [last]) ++ (Node.eventsIn body ++ [stop]) := by simp
    refine hdistinct.not_mem hsplit (ends_of_isSubstance (isSubstance_owner hsubstance)) howner ?_
    exact List.mem_append_left _ (Node.mem_eventsIn_of_mem_body hblock hmem)
  | .block head body stop, .block hhead hstop fits => fun hdistinct h => by
    have hfits : Node.Fits ctx (.block head body stop) := .block hhead hstop fits
    have hshows := (shows_written j source hfits).marks
    rw [hollows] at h
    rw [opened]
    rw [holds] at hshows
    split at h
    · simp at h
    · next hkeyframes =>
      rw [if_neg hkeyframes] at hshows ⊢
      split at h
      · next hconditional =>
        have hgroup : beginsGroup head = true := by simp [beginsGroup, hhead, hconditional]
        rw [if_pos hconditional] at hshows ⊢
        rw [Bool.or_eq_true, Bool.and_eq_true, Bool.not_eq_true'] at h
        -- Either nothing else in this group was kept, or one further in is hollow.
        rcases h with ⟨hstirs, hholds⟩ | h
        · rw [hholds] at hshows
          rw [if_pos hstirs]
          exact ⟨head, body, stop, by simp [Node.nodes], List.mem_cons_self,
            fun m hm hsubstance => absurd hsubstance (List.any_eq_false.1 hshows.substance m hm)⟩
        · obtain ⟨g, inner, stop', hblock, hempty⟩ :=
            exists_empty_of_hollowsIn source fits hdistinct.inside h
          rw [if_pos (stirsIn_of_mem hempty.1), written, if_neg hkeyframes, if_pos hconditional]
          exact ⟨g, inner, stop', by simp [Node.nodes, hblock],
            hempty.grow (List.subset_cons_self _ _) fun m hm hsubstance =>
              .inl (mem_of_group hgroup hm hsubstance)⟩
      · next hconditional =>
        rw [if_neg hconditional] at hshows ⊢
        split at h
        · next hfont =>
          rw [Bool.and_eq_true, Bool.not_eq_true'] at h
          obtain ⟨g, hg⟩ := opensGroupIn_iff.1 h.2
          obtain ⟨-, inner, stop', hblock⟩ := exists_block_of_openedIn fits hg
          rw [if_pos hfont, h.1] at hshows
          rw [hfont, Bool.or_true]
          exact ⟨g, inner, stop', by simp [Node.nodes, hblock], hg,
            fun m hm hsubstance => absurd hsubstance (List.any_eq_false.1 hshows.substance m hm)⟩
        · next hfont =>
          rw [written, if_neg hkeyframes, if_neg hconditional]
          obtain ⟨g, inner, stop', hblock, hempty⟩ :=
            exists_empty_of_hollowsIn source fits hdistinct.inside h
          rw [Bool.not_eq_true] at hfont
          rw [hfont, Bool.or_false, List.append_assoc, if_neg Bool.false_ne_true,
            Written.marks_inside]
          refine ⟨g, inner, stop', by simp [Node.nodes, hblock],
            hempty.grow (List.Subset.refl _) fun m hm hsubstance => ?_⟩
          have hwrapped : m ∈ [Mark.text head (.text head.prelude)] ∨
              m ∈ (writtenIn j source body).marks := mem_of_wrapped hm hsubstance
          refine hwrapped.symm.imp id fun hmark hmem => ?_
          obtain rfl := List.mem_singleton.1 hmark
          refine hdistinct.head_not_mem (ends_of_isSubstance hsubstance) ?_
          exact Node.mem_eventsIn_of_mem_body hblock hmem

theorem exists_empty_of_hollowsIn {j : Judge} (source : String) {ctx : Context} :
    ∀ {ns : List Node}, (∀ n ∈ ns, n.Fits ctx) → Node.Distinct ns → hollowsIn j ns = true →
      ∃ g body stop, .block g body stop ∈ Node.nodesIn ns ∧
        Empty (openedIn j false ns) (writtenIn j source ns).marks g body
  | [], _ => fun _ h => by simp [hollowsIn] at h
  | n :: ns, fits => fun hdistinct h => by
    have fits' : ∀ m ∈ ns, m.Fits ctx := fun m hm => fits m (List.mem_cons_of_mem n hm)
    rw [hollowsIn, Bool.or_eq_true] at h
    rw [openedIn, writtenIn, Written.marks_append]
    rcases h with h | h
    · obtain ⟨g, body, stop, hblock, hempty⟩ :=
        exists_empty_of_hollows source (fits n List.mem_cons_self) hdistinct.first h
      refine ⟨g, body, stop, by simp [hblock],
        hempty.grow (List.subset_append_left _ _) fun m hm hsubstance => ?_⟩
      refine (List.mem_append.1 hm).imp id fun hothers hmem => ?_
      refine hdistinct.not_mem_others (ends_of_isSubstance (isSubstance_owner hsubstance))
        ((Node.events_sublist_of_mem_nodes hblock).subset (by simp [hmem])) ?_
      exact (shows_writtenIn j source fits').marks.owned m hothers
    · obtain ⟨g, body, stop, hblock, hempty⟩ :=
        exists_empty_of_hollowsIn source fits' hdistinct.others h
      refine ⟨g, body, stop, by simp [hblock],
        hempty.grow (List.subset_append_right _ _) fun m hm hsubstance => ?_⟩
      refine (List.mem_append.1 hm).symm.imp id fun hfirst hmem => ?_
      refine hdistinct.not_mem_others (ends_of_isSubstance (isSubstance_owner hsubstance))
        ((shows_written j source (fits n List.mem_cons_self)).marks.owned m hfirst) ?_
      exact Node.mem_eventsIn_of_mem_body hblock hmem

end

/-! ## The groups of a purge -/

/-- The preludes of groups stand in the order of the source, each at most once, and those of the
groups around a group before its own. -/
structure GroupsInOrder (nodes : List Node) (ms : List Mark) : Prop where
  once : (groupsOf ms).Pairwise (·.span.start < ·.span.start)
  enclosing : ∀ g body stop g', .block g body stop ∈ Node.nodesIn nodes → beginsGroup g = true →
    g' ∈ Node.eventsIn body → g' ∈ groupsOf ms → [g, g'].Sublist (groupsOf ms)

/-- Among events that start one after another the order tells where they stand. -/
theorem pair_sublist {es : List Event} {d e : Event}
    (h : es.Pairwise (·.span.start < ·.span.start)) (hd : d ∈ es) (he : e ∈ es)
    (hlt : d.span.start < e.span.start) : [d, e].Sublist es := by
  induction es with
  | nil => simp at hd
  | cons x xs ih =>
    obtain ⟨hx, hxs⟩ := List.pairwise_cons.1 h
    rcases List.mem_cons.1 hd with rfl | hd'
    · have hne : e ≠ d := by
        rintro rfl
        exact Nat.lt_irrefl _ hlt
      exact (List.singleton_sublist.2 ((List.mem_cons.1 he).resolve_left hne)).cons_cons d
    · have hne : e ≠ x := by
        rintro rfl
        exact Nat.lt_asymm hlt (hx d hd')
      exact (ih hxs hd' ((List.mem_cons.1 he).resolve_left hne)).cons x

section

variable {j : Judge} {source : String}

theorem groupsOf_marksOf (herror : (events source).error = none) :
    groupsOf (marksOf j source) = openedIn j false (outline source) := by
  rw [marksOf_eq]
  exact (shows_writtenIn j source (outline_fits herror)).marks.groups

theorem groupsInOrder_marksOf (herror : (events source).error = none) :
    GroupsInOrder (outline source) (marksOf j source) := by
  have hfits := outline_fits herror
  have hdistinct := Node.distinct_outline herror
  have hgroups : ∀ g ∈ openedIn j false (outline source), g.kind.ends = false :=
    fun g hg => ends_of_beginsGroup (exists_block_of_openedIn hfits hg).1
  have honce : (openedIn j false (outline source)).Pairwise (·.span.start < ·.span.start) := by
    have hsub := (openedIn_sublist_eventsIn j false (outline source)).filter (!·.kind.ends)
    rw [List.filter_eq_self.2 fun g hg => by simp [hgroups g hg]] at hsub
    exact hdistinct.sublist hsub
  constructor
  · rwa [groupsOf_marksOf herror]
  · intro g body stop g' hblock hg hinside hopened
    rw [groupsOf_marksOf herror] at hopened ⊢
    have hpair : [g, g'].Sublist (Node.eventsIn (outline source)) := by
      refine List.Sublist.trans ?_ (Node.events_sublist_of_mem_nodesIn hblock)
      rw [Node.events_block]
      exact (List.singleton_sublist.2 (List.mem_append_left _ hinside)).cons_cons g
    have hlt : g.span.start < g'.span.start := by
      have hsub := hpair.filter (!·.kind.ends)
      rw [List.filter_eq_self.2 (by simp [ends_of_beginsGroup hg, hgroups g' hopened])] at hsub
      simpa using hdistinct.sublist hsub
    exact pair_sublist honce
      (encloses_openedIn hg (hgroups g' hopened) hinside hdistinct hblock hopened) hopened hlt

/-- Every group that is written is filled just if no definition of a font that is dropped leaves one
hollow. -/
theorem filled_iff (herror : (events source).error = none) :
    (∀ g ∈ groupsOf (marksOf j source), Filled (outline source) (marksOf j source) g) ↔
      hollowsIn j (outline source) = false := by
  have hfits := outline_fits herror
  rw [groupsOf_marksOf herror]
  constructor
  · intro hfilled
    rw [← Bool.not_eq_true]
    intro hhollow
    obtain ⟨g, body, stop, hblock, hopened, hempty⟩ :=
      exists_empty_of_hollowsIn source hfits (Node.distinct_outline herror) hhollow
    obtain ⟨body', stop', hblock', before, inside, after, hmarks, m, hm, hsubstance, howner⟩ :=
      hfilled g hopened
    have hgroup := (exists_block_of_openedIn hfits hopened).1
    obtain rfl := Node.body_unique_in (ends_of_beginsGroup hgroup) (Node.distinct_outline herror)
      hblock hblock'
    rw [marksOf_eq] at hmarks
    exact hempty m (by simp [hmarks, hm]) hsubstance howner
  · intro hhollow g hg
    obtain ⟨body, stop, hblock, hsurrounds⟩ := surrounds_writtenIn source hfits hhollow hg
    rw [marksOf_eq]
    refine ⟨body, stop, hblock, ?_⟩
    simpa [Written.marks] using
      hsurrounds.around (writtenIn j source (outline source)).lead []

end

/-- The conditional groups that a purge writes stand in the order of the source, none twice and each
after those around it. Each has something of substance from inside it between its brackets, unless
the definition of a font that is dropped has opened one. -/
theorem groups_of_purge {j : Judge} {source : String} {sink : Sink} {counts : Counts}
    (h : (purge j source sink).result = .ok counts) :
    (purge j source sink).sink.text = sink.text ++ textOf ((marksOf j source).map Mark.output) ∧
      GroupsInOrder (outline source) (marksOf j source) ∧
      ((∀ g ∈ groupsOf (marksOf j source), Filled (outline source) (marksOf j source) g) ↔
        hollowsIn j (outline source) = false) := by
  obtain ⟨herror, htext⟩ := purge_text_marksOf h
  exact ⟨htext, groupsInOrder_marksOf herror, filled_iff herror⟩

/-- A group around the definition of a font that is kept, with a group inside it that is opened
before the definition and closed in it. -/
theorem groups_of_purge_torn :
    let source := "@media print\x7b@font-face\x7bfont-family:X;"
      ++ "@supports (x)\x7ba\x7b\x7d\x7d\x7d\x7d"
    let j : Judge := ⟨.markup [.ofTag "a"], ⟨[("X", [.ofTag "a"])], []⟩⟩
    (purge j source .unlimited).sink.text
        = "@media print\x7b@supports (x)\x7b@font-face\x7bfont-family:X;a\x7b\x7d\x7d\x7d\x7d" ∧
      GroupsInOrder (outline source) (marksOf j source) ∧
      ∀ g ∈ groupsOf (marksOf j source), Filled (outline source) (marksOf j source) g := by
  intro source j
  obtain ⟨hok, htext, hhollow⟩ : (purge j source .unlimited).result.isOk = true ∧
      (purge j source .unlimited).sink.text
        = "@media print\x7b@supports (x)\x7b@font-face\x7bfont-family:X;a\x7b\x7d\x7d\x7d\x7d" ∧
      hollowsIn j (outline source) = false := by
    decide +kernel
  obtain ⟨counts, h⟩ := exists_counts_of_isOk hok
  obtain ⟨-, horder, hfilled⟩ := groups_of_purge h
  exact ⟨htext, horder, hfilled.2 hhollow⟩

/-- A statement in the definition of a font has opened the group around. The definition is dropped,
and the group stays with nothing in it. -/
theorem group_without_substance :
    let source := "@media print\x7b@font-face\x7bfont-family:X;@import url(x);\x7d\x7d"
    let j : Judge := ⟨.markup [], .empty⟩
    (purge j source .unlimited).result.isOk = true ∧
      (purge j source .unlimited).sink.text = "@media print\x7b\x7d" ∧
      groupsOf (marksOf j source) = [⟨.blockStart, "@media", ["print"], ⟨0, 12⟩⟩] ∧
      (marksOf j source).any Mark.isSubstance = false := by
  decide +kernel

end StyleSieve.Purge
