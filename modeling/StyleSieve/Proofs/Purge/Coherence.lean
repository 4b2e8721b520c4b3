import Mathlib.Data.List.Forall2
import StyleSieve.Proofs.Css.Unfinished
import StyleSieve.Proofs.Purge.Sparing

/-!
# The state of a run

The state between two events agrees with the blocks that are open in the stylesheet. Each of these
is remembered with the mode in which it was entered (`enteredFrom`). Blocks of at-rules entered
while keeping have their entries in order (`Stacked`), but for definitions of animations; a removed
rule and the definition of an animation hold on until as many blocks have ended as were begun inside
(`Inside`). Events of a malformed stylesheet are covered as far as they go. Nothing is said here of
what is written.
-/

namespace StyleSieve.Purge

open Css Usage
open Css.Node (Frame Nesting)

/-- A block that has been entered, and how the event that begins it was taken. -/
structure Entered where
  head : Event
  mode : Mode

/-- The block has an entry among the blocks of the state. -/
def Entered.isHeld (x : Entered) : Bool :=
  x.head.kind == .blockStart && x.mode == .keeping && !isKeyframes x.head.atName

/-- The blocks that have been entered and not left, the innermost first, after one event more. -/
def enteredAfter (opened : List Entered) (mode : Mode) (e : Event) : List Entered :=
  match e.kind with
  | .rulesetStart => ⟨e, mode⟩ :: opened
  | .blockStart => ⟨e, mode⟩ :: opened
  | .rulesetEnd => opened.drop 1
  | .blockEnd => opened.drop 1
  | _ => opened

/-- The blocks that have been entered and not left after some events. -/
def enteredFrom (j : Judge) (source : String) (s : State) (opened : List Entered) :
    List Event → List Entered
  | [] => opened
  | e :: es =>
    match s.step j source e with
    | .error _ => opened
    | .ok (t, _) => enteredFrom j source t (enteredAfter opened s.mode e) es

/-- The entry is one for the block that the event begins. -/
inductive Block.StandsFor : Block → Event → Prop
  | pending {head : Event} (group : isConditional head.atName = true) :
      StandsFor (.pending head.prelude) head
  | opened {head : Event} : StandsFor .opened head
  | fontFace {head : Event} (font : Css.isFontFace head.atName = true) : StandsFor .fontFace head

/-- The blocks of the state are those that the events begin. One is the definition of a font just
if one is being held back, and no pending block is around an opened one. -/
structure Stacked (heads : List Event) (s : State) : Prop where
  standsFor : List.Forall₂ Block.StandsFor s.blocks heads
  fontFace : s.blocks.countP Block.isFontFace = if s.fontFace.isSome then 1 else 0
  order : s.blocks.Pairwise fun inner outer => inner = .opened → ∀ prelude, outer ≠ .pending prelude

/-- All blocks have been entered while keeping, and none is the definition of an animation. -/
def AllKept (opened : List Entered) : Prop :=
  ∀ x ∈ opened, x.mode = .keeping ∧ (x.head.kind = .blockStart → isKeyframes x.head.atName = false)

/-- One of the open blocks is taken as a whole. From it inwards there are so many blocks of its
kind. -/
inductive Inside (kind : EventKind) : Nat → List Entered → Prop
  | first {x : Entered} {outer : List Entered} (kind_eq : x.head.kind = kind)
      (not_held : x.isHeld = false) (kept : AllKept outer) : Inside kind 1 (x :: outer)
  | counted {x : Entered} {outer : List Entered} {depth : Nat} (inside : Inside kind depth outer)
      (kind_eq : x.head.kind = kind) (mode_ne : x.mode ≠ .keeping) :
      Inside kind (depth + 1) (x :: outer)
  | other {x : Entered} {outer : List Entered} {depth : Nat} (inside : Inside kind depth outer)
      (kind_ne : x.head.kind ≠ kind) (mode_ne : x.mode ≠ .keeping) : Inside kind depth (x :: outer)

/-- The mode fits the blocks that are open. -/
def Mode.Covers (opened : List Entered) : Mode → Prop
  | .keeping => AllKept opened
  | .skipping depth => Inside .rulesetStart depth opened
  | .keyframes _ _ depth => Inside .blockStart depth opened

/-- The events that begin the blocks with an entry. -/
def heldHeads (opened : List Entered) : List Event :=
  (opened.filter Entered.isHeld).map Entered.head

/-- The blocks entered are those that the nesting of the events has open. -/
def Agree (opened : List Entered) (n : Nesting) : Prop :=
  List.Forall₂ (fun x f => x.head = f.opened.head ∧ x.head.kind = f.opened.kind) opened n.frames

/-- The state and the blocks entered agree with what has been read. -/
structure Tracks (n : Nesting) (opened : List Entered) (s : State) : Prop where
  agree : Agree opened n
  covers : s.mode.Covers opened
  stacked : Stacked (heldHeads opened) s
  retained : s.retained = true → s.mode = .keeping ∧ n.earlier ≠ []

/-! ## Steps that only write -/

/-- What only writes leaves the state as it is, but for pending blocks that it may open. -/
structure Steady (s t : State) : Prop where
  mode : t.mode = s.mode
  retained : t.retained = s.retained
  blocks : t.blocks = s.blocks ∨ t.blocks = (openPending s.blocks).1
  fontFace : t.fontFace.isSome = s.fontFace.isSome

section

variable {j : Judge} {source : String} {s t : State} {e : Event} {os : List Output}
  {heads : List Event} {bs : List Block}

theorem steady_put (s : State) (os : List Output) : Steady s (s.put os).1 := by
  rcases s with ⟨mode, blocks, retained, face, counts⟩
  cases face <;> exact ⟨rfl, rfl, .inl rfl, rfl⟩

theorem blocks_putInside (s : State) (os : List Output) :
    (s.putInside os).1.blocks = (openPending s.blocks).1 := by
  rcases s with ⟨mode, blocks, retained, face, counts⟩
  cases face <;> rfl

theorem steady_putInside (s : State) (os : List Output) : Steady s (s.putInside os).1 := by
  have hput := steady_put s.openAll.1 os
  exact ⟨hput.mode, hput.retained, .inr (blocks_putInside s os), hput.fontFace⟩

theorem steady_comment (s : State) (e : Event) : Steady s (s.comment e).1 := by
  rw [State.comment]
  split
  · exact steady_put s _
  · exact ⟨rfl, rfl, .inl rfl, rfl⟩

theorem steady_declaration (s : State) (e : Event) : Steady s (s.declaration e).1 := by
  rw [State.declaration]
  have hput := fun face os => steady_put { s with fontFace := face } os
  refine ⟨(hput _ _).mode, (hput _ _).retained, (hput _ _).blocks, (hput _ _).fontFace.trans ?_⟩
  exact Option.isSome_map

/-- A selector may be the first that is kept, and changes nothing else. -/
theorem steady_selector (h : s.selector j e = .ok (t, os)) :
    ∃ retained, Steady { s with retained := retained } t := by
  rw [State.selector] at h
  split at h
  · contradiction
  · split at h <;> obtain ⟨rfl, rfl⟩ := Prod.mk.inj (Except.ok.inj h)
    · have hput := fun counts os =>
        steady_putInside { s with retained := true, counts := counts } os
      exact ⟨true, (hput _ _).mode, (hput _ _).retained, (hput _ _).blocks, (hput _ _).fontFace⟩
    · exact ⟨s.retained, rfl, rfl, .inl rfl, rfl⟩

/-! ## Entries -/

theorem standsFor_openPending (h : List.Forall₂ Block.StandsFor bs heads) :
    List.Forall₂ Block.StandsFor (openPending bs).1 heads := by
  induction h with
  | nil => exact .nil
  | cons hstands _ ih =>
    cases hstands with
    | pending => exact .cons .opened ih
    | opened => exact .cons .opened ih
    | fontFace font => exact .cons (.fontFace font) ih

theorem ne_pending_of_mem_openPending :
    ∀ b ∈ (openPending bs).1, ∀ prelude, b ≠ .pending prelude := by
  induction bs with
  | nil => simp [openPending]
  | cons b bs ih => cases b <;> simpa [openPending] using ih

theorem countP_openPending (bs : List Block) :
    (openPending bs).1.countP Block.isFontFace = bs.countP Block.isFontFace := by
  have hmap := congrArg (List.countP id) (map_isFontFace_openPending bs)
  rwa [List.countP_map, List.countP_map] at hmap

theorem Stacked.steady (h : Stacked heads s) (hsteady : Steady s t) : Stacked heads t := by
  rcases hsteady.blocks with hblocks | hblocks
  · refine ⟨hblocks ▸ h.standsFor, ?_, hblocks ▸ h.order⟩
    rw [hblocks, hsteady.fontFace, h.fontFace]
  · refine ⟨?_, ?_, ?_⟩
    · rw [hblocks]
      exact standsFor_openPending h.standsFor
    · rw [hblocks, countP_openPending, hsteady.fontFace, h.fontFace]
    · rw [hblocks]
      exact List.pairwise_of_forall_mem_list fun _ _ b hb _ => ne_pending_of_mem_openPending b hb

theorem blockStart_group (hname : isKeyframes e.atName = false)
    (hgroup : isConditional e.atName = true) :
    s.blockStart j e = ({ s with blocks := .pending e.prelude :: s.blocks }, []) := by
  rw [State.blockStart, hname, if_neg Bool.false_ne_true, if_pos hgroup]

theorem blockStart_font (hname : isKeyframes e.atName = false)
    (hgroup : isConditional e.atName = false) (hfont : Css.isFontFace e.atName = true)
    (hnone : s.fontFace = none) :
    s.blockStart j e = ({ s with
      fontFace := some ⟨[.text "\x7b", .text e.prelude], ""⟩
      blocks := .fontFace :: s.blocks }, []) := by
  rw [State.blockStart, hname, if_neg Bool.false_ne_true, hgroup, if_neg Bool.false_ne_true, hfont,
    hnone]
  rfl

theorem blockStart_other (hname : isKeyframes e.atName = false)
    (hgroup : isConditional e.atName = false)
    (hother : Css.isFontFace e.atName = false ∨ s.fontFace.isSome = true) :
    (s.blockStart j e).1 =
      let inside := (s.putInside [.text e.prelude, .text "\x7b"]).1
      { inside with blocks := .opened :: inside.blocks } := by
  have hfont : (Css.isFontFace e.atName && s.fontFace.isNone) = false := by
    rw [Bool.and_eq_false_iff]
    refine hother.imp id fun hsome => ?_
    rw [← Option.not_isSome, hsome]
    rfl
  rw [State.blockStart, hname, if_neg Bool.false_ne_true, hgroup, if_neg Bool.false_ne_true, hfont,
    if_neg Bool.false_ne_true]

/-- The block of an at-rule that is no animation gets its entry. -/
theorem Stacked.blockStart (h : Stacked heads s) (hname : isKeyframes e.atName = false) :
    Stacked (e :: heads) (s.blockStart j e).1 ∧ (s.blockStart j e).1.mode = s.mode ∧
      (s.blockStart j e).1.retained = s.retained := by
  by_cases hgroup : isConditional e.atName = true
  · rw [blockStart_group hname hgroup]
    refine ⟨⟨.cons (.pending hgroup) h.standsFor, ?_, .cons ?_ h.order⟩, rfl, rfl⟩
    · rw [List.countP_cons_of_neg Bool.false_ne_true]
      exact h.fontFace
    · simp
  have hgroup := eq_false_of_ne_true hgroup
  by_cases hfont : Css.isFontFace e.atName = true ∧ s.fontFace = none
  · rw [blockStart_font hname hgroup hfont.1 hfont.2]
    have hcount := h.fontFace
    rw [hfont.2] at hcount
    refine ⟨⟨.cons (.fontFace hfont.1) h.standsFor, ?_, .cons ?_ h.order⟩, rfl, rfl⟩
    · rw [List.countP_cons_of_pos rfl, hcount]
      rfl
    · simp
  · have hother : Css.isFontFace e.atName = false ∨ s.fontFace.isSome = true := by
      rw [not_and_or, Bool.not_eq_true] at hfont
      exact hfont.imp id Option.isSome_iff_ne_none.2
    have hsteady := steady_putInside s [.text e.prelude, .text "\x7b"]
    have hinside := h.steady hsteady
    have hblocks := blocks_putInside s [.text e.prelude, .text "\x7b"]
    rw [blockStart_other hname hgroup hother]
    refine ⟨⟨.cons .opened hinside.standsFor, ?_, .cons (fun b hb _ => ?_) hinside.order⟩,
      hsteady.mode, hsteady.retained⟩
    · rw [List.countP_cons_of_neg Bool.false_ne_true]
      exact hinside.fontFace
    · -- Everything around has just been opened.
      rw [hblocks] at hb
      exact ne_pending_of_mem_openPending b hb

/-- The end of a block takes the innermost entry away. -/
theorem Stacked.blockEnd {head : Event} (h : Stacked (head :: heads) s) :
    Stacked heads (s.blockEnd j).1 ∧ (s.blockEnd j).1.mode = s.mode ∧
      (s.blockEnd j).1.retained = s.retained := by
  obtain ⟨mode, blocks, retained, face, counts⟩ := s
  obtain ⟨hstands, hcount, horder⟩ := h
  cases hstands with
  | @cons b _ bs _ _ hstands =>
    have houter := (List.pairwise_cons.1 horder).2
    let outer : State := ⟨mode, bs, retained, face, counts⟩
    cases b with
    | pending prelude =>
      rw [List.countP_cons_of_neg Bool.false_ne_true] at hcount
      exact ⟨⟨hstands, hcount, houter⟩, rfl, rfl⟩
    | opened =>
      rw [List.countP_cons_of_neg Bool.false_ne_true] at hcount
      have hstacked : Stacked heads outer := ⟨hstands, hcount, houter⟩
      have hsteady : Steady outer (outer.put [.close]).1 := steady_put outer [.close]
      exact ⟨hstacked.steady hsteady, hsteady.mode, hsteady.retained⟩
    | fontFace =>
      rw [List.countP_cons_of_pos rfl] at hcount
      cases face with
      | none => simp at hcount
      | some face =>
        -- It is the only definition of a font among the entries.
        have hnone : bs.countP Block.isFontFace = 0 := Nat.succ.inj hcount
        have hstacked : Stacked heads { outer with fontFace := none } := ⟨hstands, hnone, houter⟩
        show Stacked heads (outer.fontFaceEnd j face).1 ∧ (outer.fontFaceEnd j face).1.mode = mode ∧
          (outer.fontFaceEnd j face).1.retained = retained
        rw [State.fontFaceEnd]
        split
        · have hsteady := steady_putInside { outer with fontFace := none }
            [.text (textOf (face.outputs.reverse ++ [.close]))]
          exact ⟨hstacked.steady hsteady, hsteady.mode, hsteady.retained⟩
        · exact ⟨⟨hstands, hnone, houter⟩, rfl, rfl⟩

/-! ## Blocks that are open -/

variable {opened : List Entered} {n n' : Nesting} {kind : EventKind} {depth : Nat} {mode : Mode}

theorem not_isHeld_of_mode {x : Entered} (h : x.mode ≠ .keeping) : x.isHeld = false := by
  simp [Entered.isHeld, h]

theorem not_isHeld_of_kind {x : Entered} (h : x.head.kind ≠ .blockStart) : x.isHeld = false := by
  simp [Entered.isHeld, h]

theorem heldHeads_cons_of_not {x : Entered} (h : x.isHeld = false) :
    heldHeads (x :: opened) = heldHeads opened := by
  rw [heldHeads, List.filter_cons_of_neg (by simp [h]), heldHeads]

theorem heldHeads_cons {x : Entered} (h : x.isHeld = true) :
    heldHeads (x :: opened) = x.head :: heldHeads opened := by
  rw [heldHeads, List.filter_cons_of_pos h, List.map_cons, heldHeads]

theorem Inside.pos (h : Inside kind depth opened) : 1 ≤ depth := by
  induction h with
  | first => exact Nat.le_refl 1
  | counted => exact Nat.succ_pos _
  | other _ _ _ ih => exact ih

/-- How many blocks of a kind are open after one event more. -/
def depthAfter (start : EventKind) (depth : Nat) (kind : EventKind) : Nat :=
  if kind = start then depth + 1 else if kind.begun = some start then depth - 1 else depth

/-- What one event more can do to the open blocks. -/
inductive Moves (mode : Mode) (e : Event) : List Entered → List Entered → Prop
  | begins {opened : List Entered} (kind : e.kind = .rulesetStart ∨ e.kind = .blockStart)
      (begun : e.kind.begun = none) : Moves mode e opened (⟨e, mode⟩ :: opened)
  | ends {x : Entered} {outer : List Entered} (begun : e.kind.begun = some x.head.kind) :
      Moves mode e (x :: outer) outer
  | stays {opened : List Entered} (not_ruleset : e.kind ≠ .rulesetStart)
      (not_block : e.kind ≠ .blockStart) (begun : e.kind.begun = none) : Moves mode e opened opened

theorem Agree.after (h : Agree opened n) (hread : n.Reading e n') (mode : Mode) :
    Agree (enteredAfter opened mode e) n' ∧ Moves mode e opened (enteredAfter opened mode e) := by
  unfold Agree at h ⊢
  unfold enteredAfter
  cases hread with
  | @begins f hkind head _ frames _ =>
    rw [frames]
    rcases f.opened.kind_eq with hopened | hopened
    all_goals
      rw [hopened] at hkind
      rw [hkind]
      refine ⟨.cons ⟨head.symm, hkind.trans hopened.symm⟩ h, ?_⟩
      exact .begins (by simp [hkind]) (by rw [hkind]; rfl)
  | @ends f hkind _ frames _ =>
    rw [frames] at h
    cases h with
    | cons hx hrest =>
      have hbegun := hkind.trans (congrArg some hx.2.symm)
      cases hend : e.kind <;> rw [hend] at hkind <;> try contradiction
      all_goals exact ⟨hrest, .ends hbegun⟩
  | selector hkind frames _ =>
    rw [hkind, frames]
    exact ⟨h, .stays (by simp [hkind]) (by simp [hkind]) (by rw [hkind]; rfl)⟩
  | single hkind _ frames _ =>
    rw [frames]
    rcases hkind with hkind | hkind | hkind | hkind
    all_goals
      rw [hkind]
      exact ⟨h, .stays (by simp [hkind]) (by simp [hkind]) (by rw [hkind]; rfl)⟩

/-- A block that ends by its frame is the innermost one entered, and of the same kind. -/
theorem Agree.exists_cons {f : Frame} {frames : List Frame} (h : Agree opened n)
    (hframes : n.frames = f :: frames) :
    ∃ x outer, opened = x :: outer ∧ x.head.kind = f.opened.kind := by
  rw [Agree, hframes] at h
  cases h with
  | cons hx _ => exact ⟨_, _, rfl, hx.2⟩

/-- Inside a region blocks are begun and ended without an entry, until the region ends. -/
theorem Inside.after {opened' : List Entered}
    (hstart : kind = .rulesetStart ∨ kind = .blockStart) (h : Inside kind depth opened)
    (hmoves : Moves mode e opened opened') (hmode : mode ≠ .keeping) :
    heldHeads opened' = heldHeads opened ∧
      (depthAfter kind depth e.kind = 0 ∧ AllKept opened' ∨
        1 ≤ depthAfter kind depth e.kind ∧ Inside kind (depthAfter kind depth e.kind) opened') := by
  cases hmoves with
  | begins _ hbegun =>
    rw [heldHeads_cons_of_not (not_isHeld_of_mode hmode)]
    refine ⟨rfl, .inr ?_⟩
    by_cases heq : e.kind = kind
    · rw [depthAfter, if_pos heq]
      exact ⟨Nat.succ_pos depth, .counted h heq hmode⟩
    · rw [depthAfter, if_neg heq, hbegun, if_neg (by simp)]
      exact ⟨h.pos, .other h heq hmode⟩
  | ends hbegun =>
    have hne : e.kind ≠ kind := by
      intro heq
      rw [heq] at hbegun
      rcases hstart with rfl | rfl <;> contradiction
    rw [depthAfter, if_neg hne, hbegun]
    cases h with
    | first kind_eq not_held kept =>
      rw [heldHeads_cons_of_not not_held, if_pos (congrArg some kind_eq)]
      exact ⟨rfl, .inl ⟨rfl, kept⟩⟩
    | counted inside kind_eq mode_ne =>
      rw [heldHeads_cons_of_not (not_isHeld_of_mode mode_ne), if_pos (congrArg some kind_eq)]
      exact ⟨rfl, .inr ⟨inside.pos, inside⟩⟩
    | other inside kind_ne mode_ne =>
      rw [heldHeads_cons_of_not (not_isHeld_of_mode mode_ne),
        if_neg fun h => kind_ne (Option.some.inj h)]
      exact ⟨rfl, .inr ⟨inside.pos, inside⟩⟩
  | stays not_ruleset not_block hbegun =>
    have hne : e.kind ≠ kind := by
      rcases hstart with rfl | rfl
      · exact not_ruleset
      · exact not_block
    rw [depthAfter, if_neg hne, hbegun, if_neg (by simp)]
    exact ⟨rfl, .inr ⟨h.pos, h⟩⟩

/-! ## Steps -/

theorem Stacked.congr (h : Stacked heads s) (hblocks : t.blocks = s.blocks)
    (hface : t.fontFace = s.fontFace) : Stacked heads t := by
  refine ⟨hblocks ▸ h.standsFor, ?_, hblocks ▸ h.order⟩
  rw [hblocks, hface, h.fontFace]

/-- The last selector of a list: the rule is entered, or a removed one begins. -/
theorem rulesetStart_cases (h : s.rulesetStart j e = .ok (t, os)) (hstacked : Stacked heads s) :
    t.retained = false ∧ Stacked heads t ∧ (t.mode = s.mode ∨ t.mode = .skipping 1) := by
  rw [State.rulesetStart] at h
  split at h
  · contradiction
  · next m before hselector =>
    obtain ⟨retained, hsteady⟩ := steady_selector hselector
    have hstacked : Stacked heads m :=
      Stacked.steady (s := { s with retained := retained }) (hstacked.congr rfl rfl) hsteady
    split at h <;> obtain ⟨rfl, rfl⟩ := Prod.mk.inj (Except.ok.inj h)
    · have hput := steady_put { m with retained := false } [.text "\x7b"]
      refine ⟨hput.retained, Stacked.steady ?_ hput, .inl (hput.mode.trans hsteady.mode)⟩
      exact hstacked.congr rfl rfl
    · next hnone => exact ⟨eq_false_of_ne_true hnone, hstacked.congr rfl rfl, .inr rfl⟩

theorem inRemoved_eq (s : State) (depth : Nat) (e : Event) :
    s.inRemoved depth e = { s with
      mode := if depthAfter .rulesetStart depth e.kind = 0 then .keeping
        else .skipping (depthAfter .rulesetStart depth e.kind) } := by
  rw [State.inRemoved]
  cases e.kind <;> rfl

theorem inKeyframes_eq (s : State) (source : String) (keep : Bool) (start depth : Nat) (e : Event) :
    s.inKeyframes source keep start depth e =
      if depthAfter .blockStart depth e.kind > 0 then
        ({ s with mode := .keyframes keep start (depthAfter .blockStart depth e.kind) }, [])
      else if keep then
        { s with mode := .keeping }.putInside [.text (Text.slice source start e.span.stop)]
      else ({ s with mode := .keeping }, []) := by
  rw [State.inKeyframes]
  cases e.kind <;> rfl

theorem Tracks.allKept (h : Tracks n opened s) (hmode : s.mode = .keeping) : AllKept opened := by
  have hcovers := h.covers
  rwa [hmode] at hcovers

theorem Tracks.not_retained (h : Tracks n opened s) (hnot : s.mode ≠ .keeping ∨ n.earlier = []) :
    s.retained ≠ true := fun hretained => by
  obtain ⟨hmode, hearlier⟩ := h.retained hretained
  exact hnot.elim (absurd hmode) fun hnil => hearlier hnil

theorem Tracks.keeping {opened : List Entered} (hagree : Agree opened n) (hmode : t.mode = .keeping)
    (hkept : AllKept opened) (hstacked : Stacked (heldHeads opened) t)
    (hretained : t.retained = true → n.earlier ≠ []) : Tracks n opened t := by
  refine ⟨hagree, ?_, hstacked, fun h => ⟨hmode, hretained h⟩⟩
  rw [hmode]
  exact hkept

/-- A step that only writes. A block without an entry may have ended with it. -/
theorem Tracks.steady {opened' : List Entered} (h : Tracks n opened s) (hsteady : Steady s t)
    (hmode : s.mode = .keeping) (hbefore : n.earlier = []) (hagree : Agree opened' n')
    (hkept : AllKept opened') (hheld : heldHeads opened' = heldHeads opened) :
    Tracks n' opened' t := by
  refine .keeping hagree (hsteady.mode.trans hmode) hkept ?_ fun hretained => ?_
  · rw [hheld]
    exact h.stacked.steady hsteady
  · rw [hsteady.retained] at hretained
    exact absurd hretained (h.not_retained (.inr hbefore))

theorem AllKept.push (h : AllKept opened)
    (hname : e.kind = .blockStart → isKeyframes e.atName = false) :
    AllKept (⟨e, .keeping⟩ :: opened) :=
  List.forall_mem_cons.2 ⟨⟨rfl, hname⟩, h⟩

/-- A rule is entered, or begins to be removed. -/
theorem Tracks.rulesetStart (h : Tracks n opened s) (hmode : s.mode = .keeping)
    (hkind : e.kind = .rulesetStart) (hagree : Agree (⟨e, .keeping⟩ :: opened) n')
    (hkept : AllKept opened) (hstep : s.rulesetStart j e = .ok (t, os)) :
    Tracks n' (⟨e, .keeping⟩ :: opened) t := by
  obtain ⟨hretained, hstacked, hnext⟩ := rulesetStart_cases hstep h.stacked
  have hnotHeld : Entered.isHeld ⟨e, .keeping⟩ = false :=
    not_isHeld_of_kind (by rw [hkind]; decide)
  rw [← heldHeads_cons_of_not hnotHeld] at hstacked
  rcases hnext with hnext | hnext
  · refine .keeping hagree (hnext.trans hmode) (hkept.push fun hblock => ?_) hstacked fun h => ?_
    · rw [hkind] at hblock
      contradiction
    · rw [hretained] at h
      contradiction
  · refine ⟨hagree, ?_, hstacked, fun h => ?_⟩
    · rw [hnext]
      exact .first hkind hnotHeld hkept
    · rw [hretained] at h
      contradiction

/-- The block of an at-rule gets an entry, or the definition of an animation begins. -/
theorem Tracks.blockStart (h : Tracks n opened s) (hmode : s.mode = .keeping)
    (hkind : e.kind = .blockStart) (hbefore : n.earlier = [])
    (hagree : Agree (⟨e, .keeping⟩ :: opened) n') (hkept : AllKept opened) :
    Tracks n' (⟨e, .keeping⟩ :: opened) (s.blockStart j e).1 := by
  have hretained := h.not_retained (.inr hbefore)
  by_cases hname : isKeyframes e.atName = true
  · have hnotHeld : Entered.isHeld ⟨e, .keeping⟩ = false := by simp [Entered.isHeld, hname]
    rw [State.blockStart, if_pos hname]
    refine ⟨hagree, .first hkind hnotHeld hkept, ?_, fun h => absurd h hretained⟩
    rw [heldHeads_cons_of_not hnotHeld]
    exact h.stacked.congr rfl rfl
  · have hname := eq_false_of_ne_true hname
    have hheld : Entered.isHeld ⟨e, .keeping⟩ = true := by simp [Entered.isHeld, hname, hkind]
    obtain ⟨hstacked, hmode', hretained'⟩ := h.stacked.blockStart (j := j) hname
    refine .keeping hagree (hmode'.trans hmode) (hkept.push fun _ => hname) ?_ fun h => ?_
    · rw [heldHeads_cons hheld]
      exact hstacked
    · rw [hretained'] at h
      exact absurd h hretained

theorem AllKept.isHeld {x : Entered} (h : AllKept (x :: opened))
    (hkind : x.head.kind = .blockStart) : x.isHeld = true := by
  obtain ⟨hmode, hname⟩ := h x List.mem_cons_self
  simp [Entered.isHeld, hkind, hmode, hname hkind]

/-- The end of a block takes the entry of that block away. -/
theorem Tracks.blockEnd {x : Entered} (h : Tracks n (x :: opened) s) (hmode : s.mode = .keeping)
    (hkind : x.head.kind = .blockStart) (hbefore : n.earlier = []) (hagree : Agree opened n')
    (hkept : AllKept (x :: opened)) : Tracks n' opened (s.blockEnd j).1 := by
  have hstacked := h.stacked
  rw [heldHeads_cons (hkept.isHeld hkind)] at hstacked
  obtain ⟨hstacked, hmode', hretained'⟩ := hstacked.blockEnd (j := j)
  refine .keeping hagree (hmode'.trans hmode) (List.forall_mem_cons.1 hkept).2 hstacked
    fun hretained => ?_
  rw [hretained'] at hretained
  exact absurd hretained (h.not_retained (.inr hbefore))

theorem Tracks.kept (h : Tracks n opened s) (hmode : s.mode = .keeping) (hread : n.Reading e n')
    (hstep : s.kept j e = .ok (t, os)) : Tracks n' (enteredAfter opened .keeping e) t := by
  obtain ⟨hagree, hmoves⟩ := h.agree.after hread .keeping
  have hkept := h.allKept hmode
  rw [State.kept] at hstep
  cases hread with
  | @begins f hkind head hbefore frames _ =>
    rcases f.opened.kind_eq with hopened | hopened
    all_goals
      rw [hopened] at hkind
      rw [hkind] at hstep
      rw [enteredAfter, hkind] at hagree ⊢
    · exact h.rulesetStart hmode hkind hagree hkept hstep
    · obtain rfl := congrArg Prod.fst (Except.ok.inj hstep)
      exact h.blockStart hmode hkind (hbefore hkind) hagree hkept
  | @ends f hkind hbefore frames _ =>
    obtain ⟨x, outer, rfl, hx⟩ := h.agree.exists_cons frames
    rw [← hx] at hkind
    -- Everything open was entered while keeping, so only the block of an at-rule has an entry.
    cases hend : e.kind <;> rw [hend] at hkind hstep <;> try contradiction
    all_goals
      rw [enteredAfter, hend] at hagree ⊢
      have hhead := (Option.some.inj hkind).symm
      obtain rfl := congrArg Prod.fst (Except.ok.inj hstep)
    · have hnotHeld := not_isHeld_of_kind (x := x) (by rw [hhead]; decide)
      exact h.steady (steady_put s _) hmode hbefore hagree (List.forall_mem_cons.1 hkept).2
        (heldHeads_cons_of_not hnotHeld).symm
    · exact h.blockEnd hmode hhead hbefore hagree hkept
  | selector hkind frames hearlier =>
    rw [hkind] at hstep
    rw [enteredAfter, hkind] at hagree ⊢
    obtain ⟨retained, hsteady⟩ := steady_selector hstep
    refine .keeping hagree (hsteady.mode.trans hmode) hkept ?_ fun _ => ?_
    · exact Stacked.steady (s := { s with retained := retained }) (h.stacked.congr rfl rfl) hsteady
    · rw [hearlier]
      exact List.cons_ne_nil e n.earlier
  | single hkind hbefore frames _ =>
    have hsteady : Steady s t := by
      rcases hkind with hkind | hkind | hkind | hkind
      all_goals
        rw [hkind] at hstep
        obtain rfl := congrArg Prod.fst (Except.ok.inj hstep)
      · exact steady_comment s e
      · exact steady_declaration s e
      · exact steady_declaration s e
      · exact steady_putInside s _
    have hsame : enteredAfter opened .keeping e = opened := by
      unfold enteredAfter
      rcases hkind with hkind | hkind | hkind | hkind <;> rw [hkind]
    rw [hsame] at hagree ⊢
    exact h.steady hsteady hmode hbefore hagree hkept rfl

theorem Tracks.skipping (h : Tracks n opened s) (hmode : s.mode = .skipping depth)
    (hread : n.Reading e n') :
    Tracks n' (enteredAfter opened (.skipping depth) e) (s.inRemoved depth e) := by
  obtain ⟨hagree, hmoves⟩ := h.agree.after hread (.skipping depth)
  have hinside : Inside .rulesetStart depth opened := by
    have hcovers := h.covers
    rwa [hmode] at hcovers
  have hretained := h.not_retained (.inl (by simp [hmode]))
  obtain ⟨hheld, hafter⟩ := hinside.after (.inl rfl) hmoves (by simp)
  have hstacked : Stacked (heldHeads (enteredAfter opened (.skipping depth) e))
      (s.inRemoved depth e) := by
    rw [hheld, inRemoved_eq]
    exact h.stacked.congr rfl rfl
  refine ⟨hagree, ?_, hstacked, fun h => absurd h hretained⟩
  rw [inRemoved_eq]
  rcases hafter with ⟨hzero, hkept⟩ | ⟨hpos, hinside⟩
  · rw [if_pos hzero]
    exact hkept
  · rw [if_neg (Nat.ne_of_gt hpos)]
    exact hinside

theorem Tracks.keyframes {keep : Bool} {start : Nat} (h : Tracks n opened s)
    (hmode : s.mode = .keyframes keep start depth) (hread : n.Reading e n') :
    Tracks n' (enteredAfter opened (.keyframes keep start depth) e)
      (s.inKeyframes source keep start depth e).1 := by
  obtain ⟨hagree, hmoves⟩ := h.agree.after hread (.keyframes keep start depth)
  have hinside : Inside .blockStart depth opened := by
    have hcovers := h.covers
    rwa [hmode] at hcovers
  have hretained := h.not_retained (.inl (by simp [hmode]))
  obtain ⟨hheld, hafter⟩ := hinside.after (.inr rfl) hmoves (by simp)
  rw [inKeyframes_eq]
  rcases hafter with ⟨hzero, hkept⟩ | ⟨hpos, hinside⟩
  · rw [if_neg (by omega)]
    have hstacked : Stacked (heldHeads opened) { s with mode := .keeping } :=
      h.stacked.congr rfl rfl
    rw [← hheld] at hstacked
    cases keep with
    | true =>
      have hsteady := steady_putInside { s with mode := .keeping }
        [.text (Text.slice source start e.span.stop)]
      rw [if_pos rfl]
      refine .keeping hagree hsteady.mode hkept (hstacked.steady hsteady) fun h => ?_
      rw [hsteady.retained] at h
      exact absurd h hretained
    | false =>
      rw [if_neg Bool.false_ne_true]
      exact .keeping hagree rfl hkept hstacked fun h => absurd h hretained
  · rw [if_pos (Nat.lt_of_succ_le hpos)]
    refine ⟨hagree, hinside, ?_, fun h => absurd h hretained⟩
    rw [hheld]
    exact h.stacked.congr rfl rfl

/-- One event more. -/
theorem Tracks.step (h : Tracks n opened s) (hread : n.Reading e n')
    (hstep : s.step j source e = .ok (t, os)) : Tracks n' (enteredAfter opened s.mode e) t := by
  rw [State.step] at hstep
  cases hmode : s.mode with
  | keeping =>
    rw [hmode] at hstep
    exact h.kept hmode hread hstep
  | skipping depth =>
    rw [hmode] at hstep
    obtain rfl := congrArg Prod.fst (Except.ok.inj hstep)
    exact h.skipping hmode hread
  | keyframes keep start depth =>
    rw [hmode] at hstep
    obtain rfl := congrArg Prod.fst (Except.ok.inj hstep)
    exact h.keyframes hmode hread

/-- Events that are read one after another. -/
theorem Tracks.run {es : List Event} (h : Tracks n opened s)
    (hread : es.foldlM Nesting.read n = some n') (hruns : Runs j source s es os t) :
    Tracks n' (enteredFrom j source s opened es) t := by
  induction hruns generalizing n opened with
  | nil s =>
    obtain rfl := Option.some.inj hread
    exact h
  | cons hstep _ ih =>
    rw [List.foldlM_cons] at hread
    obtain ⟨m, hfirst, hrest⟩ := Option.bind_eq_some_iff.1 hread
    rw [enteredFrom, hstep]
    exact ih (h.step (reading_of_read hfirst) hstep) hrest

theorem tracks_initial (bytesIn : Nat) : Tracks Nesting.start [] (.initial bytesIn) := by
  refine ⟨.nil, ?_, ⟨.nil, rfl, .nil⟩, fun h => by contradiction⟩
  exact List.forall_mem_nil _

/-! ## Between two events -/

/-- The state after the events `es` of a stylesheet, before those that are left. -/
structure Coherent (source : String) (es rest : List Event) (opened : List Entered) (s : State) :
    Prop where
  nested : ∃ n, es.foldlM Nesting.read Nesting.start = some n ∧
    opened.map Entered.head = n.frames.map fun f => f.opened.head
  skipping : ∀ depth, s.mode = .skipping depth → 1 ≤ depth
  keyframes : ∀ keep start depth, s.mode = .keyframes keep start depth → 1 ≤ depth
  blocks : List.Forall₂ Block.StandsFor s.blocks (heldHeads opened)
  blockEnd : ∀ e ∈ rest.head?, e.kind = .blockEnd → s.mode = .keeping → s.blocks ≠ []
  fontFace : s.fontFace.isSome = true ↔ s.blocks.countP Block.isFontFace = 1
  no_fontFace : s.fontFace = none ↔ s.blocks.countP Block.isFontFace = 0
  order : s.blocks.Pairwise fun inner outer => inner = .opened → ∀ prelude, outer ≠ .pending prelude
  retained : s.retained = true → s.mode = .keeping ∧
    (∃ before e, es = before ++ [e] ∧ e.kind = .selector) ∧
    (∀ e ∈ rest.head?, e.kind = .selector ∨ e.kind = .rulesetStart) ∧
    (rest = [] → (events source).error ≠ none)
  idle : rest = [] → (events source).error = none → s.mode = .keeping ∧ s.blocks = [] ∧
    s.fontFace = none ∧ s.retained = false

theorem Agree.map_head (h : Agree opened n) :
    opened.map Entered.head = n.frames.map fun f => f.opened.head := by
  have hmaps := List.forall₂_map_left_iff.2 (List.forall₂_map_right_iff.2
    (List.Forall₂.imp (fun _ _ hx => hx.1) h))
  rwa [List.forall₂_eq_eq_eq] at hmaps

theorem exists_read_of_head? {rest : List Event} (h : rest.foldlM Nesting.read n = some n')
    (he : e ∈ rest.head?) : ∃ m, n.read e = some m := by
  obtain ⟨rest, rfl⟩ := List.head?_eq_some_iff.1 he
  rw [List.foldlM_cons] at h
  obtain ⟨m, hread, -⟩ := Option.bind_eq_some_iff.1 h
  exact ⟨m, hread⟩

/-- An end that is taken while keeping finds the entry of its block. -/
theorem Tracks.blocks_ne_nil (h : Tracks n opened s) (hread : n.read e = some n')
    (hkind : e.kind = .blockEnd) (hmode : s.mode = .keeping) : s.blocks ≠ [] := by
  cases reading_of_read hread with
  | @begins f hbegins _ _ _ _ =>
    rw [hkind] at hbegins
    rcases f.opened.kind_eq with hopened | hopened <;> rw [hopened] at hbegins <;> contradiction
  | @ends f hbegun _ frames _ =>
    obtain ⟨x, outer, rfl, hx⟩ := h.agree.exists_cons frames
    rw [hkind, ← hx] at hbegun
    have hhead : x.head.kind = .blockStart := (Option.some.inj hbegun).symm
    have hstands := h.stacked.standsFor
    rw [heldHeads_cons ((h.allKept hmode).isHeld hhead)] at hstands
    intro hnil
    rw [hnil] at hstands
    cases hstands
  | selector hother => rw [hkind] at hother; contradiction
  | single hother => rcases hother with h | h | h | h <;> rw [hkind] at h <;> contradiction

/-- A list of selectors has begun with the last event and goes on with the next. -/
theorem Tracks.between_selectors {es rest : List Event} (h : Tracks n opened s)
    (hread : es.foldlM Nesting.read Nesting.start = some n)
    (hrest : rest.foldlM Nesting.read n = some n') (hretained : s.retained = true) :
    s.mode = .keeping ∧ (∃ before e, es = before ++ [e] ∧ e.kind = .selector) ∧
      (∀ e ∈ rest.head?, e.kind = .selector ∨ e.kind = .rulesetStart) ∧
        (rest = [] → n'.earlier ≠ []) := by
  obtain ⟨hmode, hearlier⟩ := h.retained hretained
  refine ⟨hmode, exists_selector_of_earlier hread hearlier, fun e he => ?_, fun hnil => ?_⟩
  · obtain ⟨m, hfirst⟩ := exists_read_of_head? hrest he
    exact kind_of_earlier hfirst hearlier
  · subst hnil
    obtain rfl := Option.some.inj hrest
    exact hearlier

/-- Where no block is open and no list of selectors has begun, the state is as in the beginning. -/
theorem Tracks.idle (h : Tracks n opened s) (hrests : n.Rests []) :
    s.mode = .keeping ∧ s.blocks = [] ∧ s.fontFace = none ∧ s.retained = false := by
  have hagree := h.agree
  rw [Agree, hrests.frames] at hagree
  obtain rfl := List.forall₂_nil_right_iff.1 hagree
  have hblocks : s.blocks = [] := List.forall₂_nil_right_iff.1 h.stacked.standsFor
  have hcount := h.stacked.fontFace
  rw [hblocks] at hcount
  refine ⟨?_, hblocks, ?_, ?_⟩
  · have hcovers := h.covers
    cases hmode : s.mode with
    | keeping => rfl
    | skipping depth =>
      rw [hmode] at hcovers
      cases hcovers
    | keyframes keep start depth =>
      rw [hmode] at hcovers
      cases hcovers
  · cases hface : s.fontFace with
    | none => rfl
    | some face => simp [hface] at hcount
  · exact eq_false_of_ne_true (h.not_retained (.inr hrests.earlier))

/-- The state of a run agrees with the events that it has handled. -/
theorem coherent_of_planFrom {es rest : List Event} (hsplit : (events source).events = es ++ rest)
    (hending : (planFrom j source (.initial source.utf8ByteSize) es).ending = .ok s) :
    Coherent source es rest (enteredFrom j source (.initial source.utf8ByteSize) [] es) s := by
  obtain ⟨n, n', hread, hrest, hrests⟩ := exists_nesting_between hsplit
  have h := (tracks_initial _).run hread (runs_of_planFrom hending)
  have hcount := h.stacked.fontFace
  refine
    { nested := ⟨n, hread, ?_⟩
      skipping := fun depth hmode => ?_
      keyframes := fun keep start depth hmode => ?_
      blocks := h.stacked.standsFor
      blockEnd := fun e he hkind hmode => ?_
      fontFace := ?_
      no_fontFace := ?_
      order := h.stacked.order
      retained := fun hretained => ?_
      idle := fun hnil herror => ?_ }
  · exact h.agree.map_head
  · have hcovers := h.covers
    rw [hmode] at hcovers
    exact Inside.pos hcovers
  · have hcovers := h.covers
    rw [hmode] at hcovers
    exact Inside.pos hcovers
  · obtain ⟨m, hfirst⟩ := exists_read_of_head? hrest he
    exact h.blocks_ne_nil hfirst hkind hmode
  · rw [hcount]
    cases s.fontFace <;> simp
  · rw [hcount]
    cases s.fontFace <;> simp
  · obtain ⟨hmode, hbefore, hnext, hlast⟩ := h.between_selectors hread hrest hretained
    exact ⟨hmode, hbefore, hnext, fun hnil herror => hlast hnil (hrests herror).earlier⟩
  · subst hnil
    obtain rfl := Option.some.inj hrest
    exact h.idle (hrests herror)

/-- Inside the definition of a font, in a group that has not been opened. The brackets are never
closed. -/
theorem coherent_of_planFrom_font :
    let j : Judge := ⟨.markup [], ⟨[], []⟩⟩
    let source := "a,b\x7bx:y\x7d@media print\x7b@font-face\x7bfont-family:X"
    let es := (events source).events.take 6
    let rest := (events source).events.drop 6
    ∃ s, (planFrom j source (.initial source.utf8ByteSize) es).ending = .ok s ∧
      s.blocks = [.fontFace, .pending "@media print"] ∧
      Coherent source es rest (enteredFrom j source (.initial source.utf8ByteSize) [] es) s := by
  intro j source es rest
  have hblocks : ((planFrom j source (.initial source.utf8ByteSize) es).ending.toOption.map
      State.blocks) = some [.fontFace, .pending "@media print"] := by decide +kernel
  obtain ⟨s, hending, hblocks⟩ := Option.map_eq_some_iff.1 hblocks
  have hok := ok_of_toOption hending
  exact ⟨s, hok, hblocks, coherent_of_planFrom (List.take_append_drop 6 _).symm hok⟩

end

end StyleSieve.Purge
