import StyleSieve.Proofs.Purge.Fonts
import StyleSieve.Proofs.Purge.Pruning

/-!
# What a purge counts

A purge decides on the lists of selectors of a stylesheet, on the definitions of animations and on
those of fonts, but on none inside a removed rule or the definition of an animation, and on no font
inside another one. Each counter is the number of those that are decided in its way
(`accounts_of_purge`). A font is decided by the last family that its definition tells. This is the
family that it declares, unless a block inside it declares one too.
-/

namespace StyleSieve.Purge

open Css
open Text (slice)

/-! ## Decisions -/

mutual

/-- The selectors of a node that a purge decides on, in order. -/
def decided (j : Judge) : Node → List Event
  | .ruleset earlier last body _ =>
    earlier ++ [last] ++ if keepsRule j earlier last then decidedIn j body else []
  | .block head body _ => if isKeyframes head.atName then [] else decidedIn j body
  | _ => []

def decidedIn (j : Judge) : List Node → List Event
  | [] => []
  | n :: ns => decided j n ++ decidedIn j ns

end

/-- What a purge decides on: lists of selectors, definitions of animations, told by their heads, and
definitions of fonts, told by what stands in them. -/
structure Decisions where
  lists : List (List Event)
  animations : List Event
  fonts : List (List Node)

namespace Decisions

def none : Decisions := ⟨[], [], []⟩

def append (d d' : Decisions) : Decisions :=
  ⟨d.lists ++ d'.lists, d.animations ++ d'.animations, d.fonts ++ d'.fonts⟩

instance : Append Decisions := ⟨append⟩

/-- How the decisions add to the counters. -/
def counts (j : Judge) (d : Decisions) : Counts :=
  { Counts.zero with
    selectorsKept := d.lists.flatten.countP j.keeps
    selectorsRemoved := d.lists.flatten.countP (!j.keeps ·)
    rulesetsRemoved := d.lists.countP (!·.any j.keeps)
    fontFacesRemoved := d.fonts.countP fun body => !j.wantsFont (lastFamily j body)
    keyframesRemoved := d.animations.countP (!j.wantsAnimation ·) }

theorem append_def (d d' : Decisions) :
    d ++ d' = ⟨d.lists ++ d'.lists, d.animations ++ d'.animations, d.fonts ++ d'.fonts⟩ := rfl

@[simp] theorem none_append (d : Decisions) : none ++ d = d := rfl

@[simp] theorem append_none (d : Decisions) : d ++ none = d := by
  simp [append_def, none]

end Decisions

mutual

/-- What is decided on in a node, which may stand in the definition of a font. -/
def decisions (j : Judge) (inFont : Bool) : Node → Decisions
  | .ruleset earlier last body _ =>
    ⟨[earlier ++ [last]], [], []⟩
      ++ if keepsRule j earlier last then decisionsIn j inFont body else .none
  | .block head body _ =>
    if isKeyframes head.atName then ⟨[], [head], []⟩
    else if isFontFace head.atName && !inFont then decisionsIn j true body ++ ⟨[], [], [body]⟩
    else decisionsIn j inFont body
  | _ => .none

def decisionsIn (j : Judge) (inFont : Bool) : List Node → Decisions
  | [] => .none
  | n :: ns => decisions j inFont n ++ decisionsIn j inFont ns

end

mutual

/-- The selectors of the lists are those that are decided on. -/
theorem flatten_lists (j : Judge) (inFont : Bool) : ∀ n : Node,
    (decisions j inFont n).lists.flatten = decided j n
  | .comment _ => by simp [decisions, decided, Decisions.none]
  | .declaration _ => by simp [decisions, decided, Decisions.none]
  | .statement _ => by simp [decisions, decided, Decisions.none]
  | .ruleset earlier last body _ => by
    rw [decisions, decided, Decisions.append_def]
    split
    · simp [flatten_listsIn j inFont body]
    · simp [Decisions.none]
  | .block head body _ => by
    rw [decisions, decided]
    split
    · rfl
    · split
      · simp [Decisions.append_def, flatten_listsIn j true body]
      · exact flatten_listsIn j inFont body

theorem flatten_listsIn (j : Judge) (inFont : Bool) : ∀ ns : List Node,
    (decisionsIn j inFont ns).lists.flatten = decidedIn j ns
  | [] => by rw [decisionsIn, decidedIn]; rfl
  | n :: ns => by
    rw [decisionsIn, decidedIn, Decisions.append_def, List.flatten_append, flatten_lists j inFont n,
      flatten_listsIn j inFont ns]

end

/-! ## Counters -/

theorem counts_append (j : Judge) (d d' : Decisions) :
    (d ++ d').counts j = d.counts j + d'.counts j := by
  simp [Decisions.append_def, Decisions.counts, Counts.add_def, Counts.zero]

/-- How some selectors of a list add to the counters. -/
def selectorCounts (j : Judge) (es : List Event) : Counts :=
  { Counts.zero with
    selectorsKept := es.countP j.keeps
    selectorsRemoved := es.countP (!j.keeps ·) }

theorem selectorCounts_append (j : Judge) (es es' : List Event) :
    selectorCounts j (es ++ es') = selectorCounts j es + selectorCounts j es' := by
  simp [selectorCounts, Counts.add_def, Counts.zero]

theorem counts_list (j : Judge) (l : List Event) :
    Decisions.counts j ⟨[l], [], []⟩ = { selectorCounts j l with
      rulesetsRemoved := if l.any j.keeps then 0 else 1 } := by
  cases h : l.any j.keeps <;> simp [Decisions.counts, selectorCounts, Counts.zero, h]

/-! ## States between events -/

/-- Some selectors of a list have been decided on. -/
structure Decides (j : Judge) (es : List Event) (s t : State) : Prop where
  mode : t.mode = .keeping
  inFont : t.fontFace.isSome = s.fontFace.isSome
  retained : t.retained = (s.retained || es.any j.keeps)
  counts : t.counts = s.counts + selectorCounts j es

/-- A later state between nodes, with what was decided on in between. -/
structure Tallies (j : Judge) (d : Decisions) (s t : State) : Prop where
  mode : t.mode = .keeping
  inFont : t.fontFace.isSome = s.fontFace.isSome
  retained : t.retained = false
  counts : t.counts = s.counts + d.counts j

section

variable {j : Judge} {source : String} {s m t : State} {e head stop last : Event}
  {es es' earlier : List Event} {d d' : Decisions} {os : List Output} {body : List Node}
  {ctx : Context}

theorem Decides.trans (h : Decides j es s m) (h' : Decides j es' m t) :
    Decides j (es ++ es') s t where
  mode := h'.mode
  inFont := h'.inFont.trans h.inFont
  retained := by rw [h'.retained, h.retained, List.any_append, Bool.or_assoc]
  counts := by rw [h'.counts, h.counts, Counts.add_assoc, selectorCounts_append]

theorem Tallies.trans (h : Tallies j d s m) (h' : Tallies j d' m t) :
    Tallies j (d ++ d') s t where
  mode := h'.mode
  inFont := h'.inFont.trans h.inFont
  retained := h'.retained
  counts := by rw [h'.counts, h.counts, Counts.add_assoc, counts_append]

theorem Tallies.of_eq {p : Step} (h : Tallies j d s p.1) (hp : p = (t, os)) :
    Tallies j d s t := by
  rwa [hp] at h

/-- Of the state before, only the counters and whether a font is held back matter. -/
theorem Tallies.since (h : Tallies j d m t) (hcounts : m.counts = s.counts)
    (hface : m.fontFace.isSome = s.fontFace.isSome) : Tallies j d s t :=
  ⟨h.mode, h.inFont.trans hface, h.retained, hcounts ▸ h.counts⟩

/-- Writing changes the blocks and the definition of a font at most. -/
theorem exists_put (s : State) (os : List Output) :
    ∃ face, (s.put os).1 = { s with fontFace := face } ∧ face.isSome = s.fontFace.isSome := by
  rcases s with ⟨mode, blocks, retained, _ | face, counts⟩
  · exact ⟨_, rfl, rfl⟩
  · exact ⟨_, rfl, rfl⟩

theorem exists_putInside (s : State) (os : List Output) :
    ∃ blocks face, (s.putInside os).1 = { s with blocks := blocks, fontFace := face } ∧
      face.isSome = s.fontFace.isSome := by
  obtain ⟨face, hput, hface⟩ := exists_put s.openAll.1 os
  exact ⟨_, face, hput, hface⟩

theorem tallies_put (hmode : s.mode = .keeping) (hretained : s.retained = false)
    (os : List Output) : Tallies j .none s (s.put os).1 := by
  obtain ⟨face, hput, hface⟩ := exists_put s os
  rw [hput]
  exact ⟨hmode, hface, hretained, rfl⟩

theorem tallies_putInside (hmode : s.mode = .keeping) (hretained : s.retained = false)
    (os : List Output) : Tallies j .none s (s.putInside os).1 := by
  obtain ⟨blocks, face, hput, hface⟩ := exists_putInside s os
  rw [hput]
  exact ⟨hmode, hface, hretained, rfl⟩

/-! ## Steps -/

/-- Nothing is decided on by an event that is no selector and no bracket of an at-rule's block. -/
theorem tallies_step (hmode : s.mode = .keeping) (hretained : s.retained = false)
    (hselector : e.kind ≠ .selector ∧ e.kind ≠ .rulesetStart)
    (hblock : e.kind ≠ .blockStart ∧ e.kind ≠ .blockEnd)
    (hstep : s.step j source e = .ok (t, os)) : Tallies j .none s t := by
  rw [step_keeping hmode, State.kept] at hstep
  have hput (os : List Output) : Tallies j .none s (s.put os).1 := tallies_put hmode hretained os
  have hdeclare : Tallies j .none s (s.declaration e).1 := by
    have hheard := tallies_put (j := j) (s := s.hear e) hmode hretained
      [.declaration e.data e.values]
    exact hheard.since rfl Option.isSome_map
  cases hkind : e.kind <;> simp only [hkind, Except.ok.injEq] at hstep
  case selector => exact absurd hkind hselector.1
  case rulesetStart => exact absurd hkind hselector.2
  case blockStart => exact absurd hkind hblock.1
  case blockEnd => exact absurd hkind hblock.2
  case comment =>
    rw [State.comment] at hstep
    split at hstep
    · exact (hput _).of_eq hstep
    · obtain ⟨rfl, -⟩ := Prod.mk.inj hstep
      exact ⟨hmode, rfl, hretained, rfl⟩
  case rulesetEnd => exact (hput _).of_eq hstep
  case declaration => exact hdeclare.of_eq hstep
  case customDeclaration => exact hdeclare.of_eq hstep
  case statement => exact (tallies_putInside hmode hretained _).of_eq hstep

/-- A selector is decided on, whether it is kept or not. -/
theorem decides_selector (hmode : s.mode = .keeping) (hselector : s.selector j e = .ok (t, os)) :
    Decides j [e] s t := by
  rw [State.selector] at hselector
  split at hselector
  · simp at hselector
  · next chain hchain =>
    have hkeeps : j.keeps e = j.index.includes chain := by simp [Judge.keeps, hchain]
    dsimp only at hselector
    split at hselector
    · next hincluded =>
      obtain ⟨blocks, face, hput, hface⟩ := exists_putInside { s with
        retained := true
        counts := { s.counts with selectorsKept := s.counts.selectorsKept + 1 } }
        ((if s.retained then [.text ","] else []) ++ [.text e.text])
      obtain rfl := (congrArg Prod.fst (Except.ok.inj hselector)).symm.trans hput
      have hcount : j.keeps e = true := hkeeps.trans hincluded
      exact ⟨hmode, hface, by simp [hcount],
        by simp [selectorCounts, Counts.add_def, Counts.zero, hcount]⟩
    · next hincluded =>
      obtain ⟨rfl, -⟩ := Prod.mk.inj (Except.ok.inj hselector)
      have hcount : j.keeps e = false := hkeeps.trans (Bool.not_eq_true _ ▸ hincluded)
      exact ⟨hmode, rfl, by simp [hcount],
        by simp [selectorCounts, Counts.add_def, Counts.zero, hcount]⟩

/-- The selectors of a list that others follow. -/
theorem decides_of_runs (hmode : s.mode = .keeping) (hkind : ∀ e ∈ es, e.kind = .selector)
    (hruns : Runs j source s es os t) : Decides j es s t := by
  induction es generalizing s os with
  | nil =>
    obtain ⟨rfl, -⟩ := runs_nil_iff.1 hruns
    exact ⟨hmode, rfl, by simp, rfl⟩
  | cons e es ih =>
    obtain ⟨m, here, later, hstep, hrest, -⟩ := runs_cons_iff.1 hruns
    rw [step_keeping hmode, State.kept, hkind e List.mem_cons_self] at hstep
    have hfirst := decides_selector hmode hstep
    exact hfirst.trans (ih hfirst.mode (fun x hx => hkind x (List.mem_cons_of_mem e hx)) hrest)

/-- After the last selector of a list the rule is entered, or it is skipped. -/
theorem tallies_list (hmode : s.mode = .keeping) (hretained : s.retained = false)
    (hearlier : ∀ e ∈ earlier, e.kind = .selector) (hlast : last.kind = .rulesetStart)
    (hruns : Runs j source s (earlier ++ [last]) os t) :
    t.mode = (if keepsRule j earlier last then .keeping else .skipping 1) ∧
      Tallies j ⟨[earlier ++ [last]], [], []⟩ s { t with mode := .keeping } := by
  obtain ⟨m, here, later, hruns₁, hrest, -⟩ := runs_append_iff.1 hruns
  have hdecides := decides_of_runs hmode hearlier hruns₁
  have hstep := runs_singleton_iff.1 hrest
  rw [step_keeping hdecides.mode, State.kept, hlast] at hstep
  simp only [State.rulesetStart] at hstep
  split at hstep
  · simp at hstep
  · next m' before hselector =>
    have hall := hdecides.trans (decides_selector hdecides.mode hselector)
    have hkeeps : m'.retained = keepsRule j earlier last := by
      rw [hall.retained, hretained, Bool.false_or, keepsRule]
    have hcounts := hall.counts
    split at hstep
    · next hsome =>
      rw [hkeeps] at hsome
      obtain ⟨face, hput, hface⟩ := exists_put { m' with retained := false } [.text "\x7b"]
      obtain ⟨rfl, -⟩ := Prod.mk.inj (Except.ok.inj hstep)
      rw [hput, if_pos hsome]
      refine ⟨hall.mode, rfl, hface.trans hall.inFont, rfl, ?_⟩
      rw [counts_list, ← keepsRule, if_pos hsome]
      exact hcounts
    · next hnone =>
      rw [hkeeps] at hnone
      obtain ⟨rfl, -⟩ := Prod.mk.inj (Except.ok.inj hstep)
      rw [if_neg hnone]
      refine ⟨rfl, rfl, hall.inFont, by rw [hkeeps]; simpa using hnone, ?_⟩
      rw [counts_list, ← keepsRule, if_neg hnone]
      simp only [hcounts]
      rfl

theorem tallies_keyframes (hmode : s.mode = .keeping) (hretained : s.retained = false)
    (hhead : head.kind = .blockStart) (hstop : stop.kind = .blockEnd)
    (hname : isKeyframes head.atName = true) (hbody : ∀ n ∈ body, n.Fits ctx)
    (hruns : Runs j source s (head :: (Node.eventsIn body ++ [stop])) os t) :
    Tallies j ⟨[], [head], []⟩ s t := by
  have hend := runs_keyframes hmode hhead hstop hbody hname hruns
  dsimp only at hend
  split at hend
  · next hwanted =>
    obtain ⟨blocks, face, hput, hface⟩ := exists_putInside { s with counts := { s.counts with
      keyframesRemoved := s.counts.keyframesRemoved + 0 } }
      [.text (slice source head.span.start stop.span.stop)]
    obtain rfl := (congrArg Prod.fst hend).symm.trans hput
    refine ⟨hmode, hface, hretained, ?_⟩
    simp [Decisions.counts, Counts.add_def, Counts.zero, hwanted]
  · next hwanted =>
    obtain ⟨rfl, -⟩ := hend
    refine ⟨hmode, rfl, hretained, ?_⟩
    simp [Decisions.counts, Counts.add_def, Counts.zero, hwanted]

/-! ## Blocks of at-rules -/

/-- Every state that keeps has written some draft. -/
theorem exists_matches (hmode : s.mode = .keeping) :
    ∃ d, Matches s d ∧ d.held.isSome = s.fontFace.isSome := by
  let owner : Event := ⟨.comment, "", [], ⟨0, 0⟩⟩
  let held : FontFace → Held := fun face => ⟨face.outputs.reverse.map (.text owner), face.family⟩
  have hheld : ∀ face, (held face).fontFace = face := by
    rintro ⟨outputs, family⟩
    simp [held, Held.fontFace, List.map_reverse, Function.comp_def, Mark.output]
  refine ⟨⟨[], (pendingPreludes s.blocks).map fun p => ⟨.blockStart, p, [], ⟨0, 0⟩⟩,
    s.fontFace.map held⟩, ⟨hmode, ?_, ?_⟩, Option.isSome_map⟩
  · simp [Function.comp_def, Event.prelude]
  · simp [Function.comp_def, hheld]

/-- A run over some nodes only opens groups that were pending. -/
theorem exists_settled_of_runs (hfits : ∀ n ∈ body, n.Fits ctx) (hmode : s.mode = .keeping)
    (hretained : s.retained = false) (hruns : Runs j source s (Node.eventsIn body) os t) :
    ∃ pending, t.blocks = settled s.blocks pending := by
  obtain ⟨d, hmatches, -⟩ := exists_matches hmode
  exact ⟨_, (advance_writeIn hfits hruns hmatches hretained).blocks⟩

/-- While the definition of a font is read, its family is the last one that it has told. -/
theorem family_of_runs (head : Event) (hfits : ∀ n ∈ body, n.Fits ctx) (hmode : s.mode = .keeping)
    (hretained : s.retained = false)
    (hface : s.fontFace = some ⟨[.text "\x7b", .text head.prelude], ""⟩)
    (hruns : Runs j source s (Node.eventsIn body) os t) :
    ∃ face, t.fontFace = some face ∧ face.family = lastFamily j body := by
  obtain ⟨d, hmatches, -⟩ := exists_matches hmode
  have hbegin : Matches s { d with held := some ⟨headMarks head, ""⟩ } :=
    ⟨hmode, hmatches.pending, hface⟩
  have hend := (advance_writeIn hfits hruns hbegin hretained).fontFace
  rw [write_of_held_in j source (d := { d with held := some ⟨headMarks head, ""⟩ }) rfl] at hend
  exact ⟨_, hend, rfl⟩

/-- A run over some nodes decides on what it finds in them. -/
def Tallied (j : Judge) (source : String) (ns : List Node) : Prop :=
  ∀ {s t : State} {os : List Output}, s.mode = .keeping → s.retained = false →
    Runs j source s (Node.eventsIn ns) os t → Tallies j (decisionsIn j s.fontFace.isSome ns) s t

/-- The block of an at-rule begins that is no definition of an animation or a font. -/
theorem tallies_blockStart (hmode : s.mode = .keeping) (hretained : s.retained = false)
    (hhead : head.kind = .blockStart) (hkeyframes : ¬ isKeyframes head.atName)
    (hfont : ¬ (isFontFace head.atName && s.fontFace.isNone))
    (hstep : s.step j source head = .ok (t, os)) :
    Tallies j .none s t ∧ ∃ b blocks, t.blocks = b :: blocks ∧ b ≠ .fontFace := by
  rw [step_keeping hmode] at hstep
  simp only [State.kept, hhead, State.blockStart, hkeyframes, hfont, if_false, Except.ok.injEq,
    Bool.false_eq_true] at hstep
  split at hstep
  · obtain ⟨rfl, -⟩ := Prod.mk.inj hstep
    exact ⟨⟨hmode, rfl, hretained, rfl⟩, _, _, rfl, by simp⟩
  · obtain ⟨rfl, -⟩ := Prod.mk.inj hstep
    have hput := tallies_putInside (j := j) hmode hretained [.text head.prelude, .text "\x7b"]
    exact ⟨{ hput with }, _, _, rfl, by simp⟩

/-- It ends, whether it was opened or not. -/
theorem tallies_blockEnd {b : Block} (hmode : s.mode = .keeping) (hretained : s.retained = false)
    (hstop : stop.kind = .blockEnd) (hb : s.blocks.head? = some b) (hne : b ≠ .fontFace)
    (hstep : s.step j source stop = .ok (t, os)) : Tallies j .none s t := by
  rw [step_keeping hmode] at hstep
  simp only [State.kept, hstop, State.blockEnd, hb, Except.ok.injEq] at hstep
  cases b with
  | pending prelude =>
    obtain ⟨rfl, -⟩ := Prod.mk.inj hstep
    exact ⟨hmode, rfl, hretained, rfl⟩
  | opened =>
    have hput := tallies_put (j := j) (s := { s with blocks := s.blocks.drop 1 }) hmode hretained
      [.close]
    exact (hput.of_eq hstep).since rfl rfl
  | fontFace => exact absurd rfl hne

theorem exists_head_settled {b : Block} (hne : b ≠ .fontFace) (blocks : List Block)
    (pending : List Event) : ∃ b', (settled (b :: blocks) pending).head? = some b' ∧
      b' ≠ .fontFace := by
  cases b with
  | pending prelude =>
    rw [settled_pending]
    split <;> exact ⟨_, rfl, by simp⟩
  | opened =>
    rw [settled_opened]
    exact ⟨_, rfl, by simp⟩
  | fontFace => exact absurd rfl hne

/-- A block that is no definition of an animation or a font decides on nothing itself. -/
theorem tallies_block (hmode : s.mode = .keeping) (hretained : s.retained = false)
    (hhead : head.kind = .blockStart) (hstop : stop.kind = .blockEnd)
    (hkeyframes : ¬ isKeyframes head.atName)
    (hfont : ¬ (isFontFace head.atName && s.fontFace.isNone)) (hfits : ∀ n ∈ body, n.Fits ctx)
    (hbody : Tallied j source body)
    (hruns : Runs j source s (head :: (Node.eventsIn body ++ [stop])) os t) :
    Tallies j (decisionsIn j s.fontFace.isSome body) s t := by
  obtain ⟨m, here, later, hstart, hrest, -⟩ := runs_cons_iff.1 hruns
  obtain ⟨m', inside, last, hinside, hlast, -⟩ := runs_append_iff.1 hrest
  obtain ⟨hbegin, b, blocks, hblocks, hne⟩ :=
    tallies_blockStart hmode hretained hhead hkeyframes hfont hstart
  have hinner := hbody hbegin.mode hbegin.retained hinside
  obtain ⟨pending, hsettled⟩ := exists_settled_of_runs hfits hbegin.mode hbegin.retained hinside
  obtain ⟨b', hb', hne'⟩ := exists_head_settled hne blocks pending
  rw [← hblocks, ← hsettled] at hb'
  have hend := tallies_blockEnd hinner.mode hinner.retained hstop hb' hne'
    (runs_singleton_iff.1 hlast)
  have hall := (hbegin.trans hinner).trans hend
  rwa [hbegin.inFont, Decisions.none_append, Decisions.append_none] at hall

/-- What was held back goes out or is dropped. -/
theorem fontFaceEnd_eq {face : FontFace} (hmode : s.mode = .keeping)
    (hretained : s.retained = false) (hfamily : face.family = lastFamily j body)
    (hend : s.fontFaceEnd j face = (t, os)) :
    t.mode = .keeping ∧ t.fontFace = Option.none ∧ t.retained = false ∧
      t.counts = s.counts + Decisions.counts j ⟨[], [], [body]⟩ := by
  have hwants : j.references.fontWanted j.index face.family = j.wantsFont (lastFamily j body) := by
    rw [hfamily, Judge.wantsFont]
  rw [State.fontFaceEnd, hwants] at hend
  split at hend
  · next hwanted =>
    obtain ⟨blocks, face', hput, hface⟩ := exists_putInside { s with fontFace := Option.none }
      [.text (textOf (face.outputs.reverse ++ [.close]))]
    obtain rfl := (congrArg Prod.fst hend).symm.trans hput
    refine ⟨hmode, by simpa using hface, hretained, ?_⟩
    simp [Decisions.counts, Counts.add_def, Counts.zero, hwanted]
  · next hwanted =>
    obtain ⟨rfl, -⟩ := Prod.mk.inj hend
    refine ⟨hmode, rfl, hretained, ?_⟩
    simp [Decisions.counts, Counts.add_def, Counts.zero, hwanted]

/-- The definition of a font is decided on at its end, by the last family that it has told. -/
theorem tallies_fontFace (hmode : s.mode = .keeping) (hretained : s.retained = false)
    (hhead : head.kind = .blockStart) (hstop : stop.kind = .blockEnd)
    (hname : isFontFace head.atName) (hnone : s.fontFace.isNone) (hfits : ∀ n ∈ body, n.Fits ctx)
    (hbody : Tallied j source body)
    (hruns : Runs j source s (head :: (Node.eventsIn body ++ [stop])) os t) :
    Tallies j (decisionsIn j true body ++ ⟨[], [], [body]⟩) s t := by
  obtain ⟨m, here, later, hstart, hrest, -⟩ := runs_cons_iff.1 hruns
  obtain ⟨m', inside, last, hinside, hlast, -⟩ := runs_append_iff.1 hrest
  obtain ⟨hkeyframes, hconditional⟩ := not_other_of_fontFace hname
  rw [step_keeping hmode] at hstart
  simp only [State.kept, hhead, State.blockStart, hkeyframes, hconditional, hname, hnone, if_true,
    if_false, Except.ok.injEq, Bool.false_eq_true, Bool.and_self] at hstart
  obtain ⟨rfl, -⟩ := Prod.mk.inj hstart
  have hinner := hbody (by exact hmode) (by exact hretained) hinside
  obtain ⟨pending, hblocks⟩ :=
    exists_settled_of_runs hfits (by exact hmode) (by exact hretained) hinside
  obtain ⟨face, hface, hfamily⟩ :=
    family_of_runs head hfits (by exact hmode) (by exact hretained) rfl hinside
  rw [settled_fontFace] at hblocks
  have hend := runs_singleton_iff.1 hlast
  rw [step_keeping hinner.mode] at hend
  simp only [State.kept, hstop, State.blockEnd, hblocks, hface, List.head?_cons,
    Except.ok.injEq] at hend
  obtain ⟨hmode', hface', hretained', hcounts⟩ :=
    fontFaceEnd_eq (by exact hinner.mode) (by exact hinner.retained) hfamily hend
  refine ⟨hmode', ?_, hretained', ?_⟩
  · rw [hface', Option.isNone_iff_eq_none.1 hnone]
  · rw [hcounts, counts_append, ← Counts.add_assoc]
    exact congrArg (· + Decisions.counts j ⟨[], [], [body]⟩) hinner.counts

end

/-! ## Runs -/

mutual

/-- A run over a node decides on what it finds in it. -/
theorem tallies_of_runs {j : Judge} {source : String} {ctx : Context} {s t : State}
    {os : List Output} : ∀ {n : Node}, n.Fits ctx → s.mode = .keeping → s.retained = false →
      Runs j source s n.events os t → Tallies j (decisions j s.fontFace.isSome n) s t
  | .comment e, .comment kind, hmode, hretained, hruns => by
    rw [Node.events_comment, runs_singleton_iff] at hruns
    have hnone : decisions j s.fontFace.isSome (.comment e) = .none := by simp [decisions]
    rw [hnone]
    exact tallies_step hmode hretained (by simp [kind]) (by simp [kind]) hruns
  | .declaration e, .declaration kind, hmode, hretained, hruns => by
    rw [Node.events_declaration, runs_singleton_iff] at hruns
    have hnone : decisions j s.fontFace.isSome (.declaration e) = .none := by simp [decisions]
    rw [hnone]
    rcases kind with kind | kind
    · exact tallies_step hmode hretained (by simp [kind]) (by simp [kind]) hruns
    · exact tallies_step hmode hretained (by simp [kind]) (by simp [kind]) hruns
  | .statement e, .statement kind, hmode, hretained, hruns => by
    rw [Node.events_statement, runs_singleton_iff] at hruns
    have hnone : decisions j s.fontFace.isSome (.statement e) = .none := by simp [decisions]
    rw [hnone]
    exact tallies_step hmode hretained (by simp [kind]) (by simp [kind]) hruns
  | .ruleset earlier last body stop, .ruleset hearlier hlast hstop fits, hmode, hretained,
      hruns => by
    rw [Node.events_ruleset, List.append_cons] at hruns
    obtain ⟨m, here, later, hlist, hrest, -⟩ := runs_append_iff.1 hruns
    obtain ⟨hmode', hdecided⟩ := tallies_list hmode hretained hearlier hlast hlist
    rw [decisions]
    split
    · next hkeeps =>
      rw [if_pos hkeeps] at hmode'
      obtain ⟨m', inside, final, hinside, hfinal, -⟩ := runs_append_iff.1 hrest
      have hbody := tallies_of_runsIn fits hmode' hdecided.retained hinside
      have hend := tallies_step hbody.mode hbody.retained (by simp [hstop]) (by simp [hstop])
        (runs_singleton_iff.1 hfinal)
      have hinner := hbody.trans hend
      rw [Decisions.append_none, hdecided.inFont] at hinner
      exact hdecided.trans ⟨hinner.mode, hinner.inFont, hinner.retained, hinner.counts⟩
    · next hkeeps =>
      rw [if_neg hkeeps] at hmode'
      obtain ⟨rfl, -⟩ := runs_skipped hmode' fits hstop hrest
      rwa [Decisions.append_none]
  | .block head body stop, .block hhead hstop fits, hmode, hretained, hruns => by
    rw [Node.events_block] at hruns
    have hbody : Tallied j source body := tallies_of_runsIn fits
    rw [decisions]
    split
    · next hname => exact tallies_keyframes hmode hretained hhead hstop hname fits hruns
    · next hname =>
      split
      · next hfont =>
        obtain ⟨hfont, hnone⟩ : isFontFace head.atName = true ∧ s.fontFace.isNone = true := by
          simpa using hfont
        exact tallies_fontFace hmode hretained hhead hstop hfont hnone fits hbody hruns
      · next hfont =>
        exact tallies_block hmode hretained hhead hstop hname (by simpa using hfont) fits hbody
          hruns

theorem tallies_of_runsIn {j : Judge} {source : String} {ctx : Context} :
    ∀ {ns : List Node}, (∀ n ∈ ns, n.Fits ctx) → Tallied j source ns
  | [], _ => by
    intro hmode hretained hruns
    rw [Node.eventsIn_nil] at hruns
    obtain ⟨rfl, -⟩ := runs_nil_iff.1 hruns
    rw [decisionsIn]
    exact ⟨hmode, rfl, hretained, rfl⟩
  | n :: ns, fits => by
    intro hmode hretained hruns
    rw [Node.eventsIn_cons] at hruns
    obtain ⟨m, here, later, hn, hns, -⟩ := runs_append_iff.1 hruns
    have hfirst := tallies_of_runs (fits n List.mem_cons_self) hmode hretained hn
    have hothers := tallies_of_runsIn (fun x hx => fits x (List.mem_cons_of_mem n hx)) hfirst.mode
      hfirst.retained hns
    rw [hfirst.inFont] at hothers
    rw [decisionsIn]
    exact hfirst.trans hothers

end

/-- The counters of a purge that succeeds are those of its decisions, with the bytes. -/
theorem counts_of_ok {j : Judge} {source : String} {sink : Sink} {counts : Counts}
    (h : (purge j source sink).result = .ok counts) :
    counts = { (decisionsIn j false (outline source)).counts j with
      bytesIn := source.utf8ByteSize
      bytesOut := counts.bytesOut } := by
  obtain ⟨herror, os, t, hruns, -, hcounts⟩ := exists_run_of_purge h
  rw [← outline_events herror] at hruns
  have htallies := tallies_of_runsIn (outline_fits herror) rfl rfl hruns
  rw [hcounts, htallies.counts]
  simp [State.initial, Counts.add_def, Counts.zero, Decisions.counts]

/-- The counters for selectors after a purge that succeeds. -/
theorem selectors_of_purge {j : Judge} {source : String} {sink : Sink} {counts : Counts}
    (h : (purge j source sink).result = .ok counts) :
    counts.selectorsKept = (decidedIn j (outline source)).countP j.keeps ∧
      counts.selectorsRemoved = (decidedIn j (outline source)).countP (!j.keeps ·) := by
  have hcounts := counts_of_ok h
  rw [← flatten_listsIn j false]
  exact ⟨congrArg Counts.selectorsKept hcounts, congrArg Counts.selectorsRemoved hcounts⟩

/-! ## Bytes -/

namespace Emitter

/-- What is counted as written is what the sink has grown by, also when it refuses a piece. -/
theorem written_hand (e : Emitter) (ps : List String) :
    (e.hand ps).1.written + e.sink.size = e.written + (e.hand ps).1.sink.size := by
  induction ps generalizing e with
  | nil => rfl
  | cons p ps ih =>
    rw [hand]
    split
    · exact ih e
    · split
      · have hgrown := ih { e with sink := e.sink.put p, written := e.written + p.utf8ByteSize }
        simp only [Sink.put, Sink.size, String.utf8ByteSize_append] at hgrown ⊢
        omega
      · rfl

theorem written_write (e : Emitter) (o : Output) :
    (e.write o).1.written + e.sink.size = e.written + (e.write o).1.sink.size := by
  have hgrown := written_hand { e with due := false } (o.pieces e.due)
  rw [write]
  split
  · next e' hhand =>
    rw [hhand] at hgrown
    exact hgrown
  · next e' fault hhand =>
    rw [hhand] at hgrown
    exact hgrown

theorem written_writeAll (e : Emitter) (os : List Output) :
    (e.writeAll os).1.written + e.sink.size = e.written + (e.writeAll os).1.sink.size := by
  induction os generalizing e with
  | nil => rfl
  | cons o os ih =>
    have hfirst := written_write e o
    rw [writeAll]
    split
    · next e' hwrite =>
      rw [hwrite] at hfirst
      have hrest := ih e'
      dsimp only at hfirst
      omega
    · next e' fault hwrite =>
      rw [hwrite] at hfirst
      exact hfirst

end Emitter

/-- A purge that succeeds counts the bytes that its sink has received. -/
theorem size_of_purge {j : Judge} {source : String} {sink : Sink} {counts : Counts}
    (h : (purge j source sink).result = .ok counts) :
    (purge j source sink).sink.size = sink.size + counts.bytesOut := by
  have hpurge : purge j source sink = ⟨(purge j source sink).sink, .ok counts⟩ := by rw [← h]
  obtain ⟨t, e, -, hwrite, -, hsink, hcounts⟩ := purge_ok_iff.1 hpurge
  have hwritten := Emitter.written_writeAll (.ofSink sink) (planOf j source).outputs
  rw [hwrite] at hwritten
  rw [← hsink, hcounts]
  simp only [Emitter.ofSink] at hwritten ⊢
  omega

/-! ## Accounts -/

/-- The counters account for what a purge has decided on, and for the bytes. -/
structure AccountsFor (j : Judge) (source : String) (sink sink' : Sink) (counts : Counts)
    (d : Decisions) : Prop where
  selectors : counts.selectorsKept + counts.selectorsRemoved = d.lists.flatten.length
  selectors_kept : counts.selectorsKept = d.lists.flatten.countP j.keeps
  rulesets : counts.rulesetsRemoved = d.lists.countP fun list => !list.any j.keeps
  animations : counts.keyframesRemoved = d.animations.countP fun head => !j.wantsAnimation head
  fonts : counts.fontFacesRemoved = d.fonts.countP fun body => !j.wantsFont (lastFamily j body)
  /-- If no block inside the definition of a font tells another family than the definition itself,
  these are the fonts whose own family is not wanted. -/
  own_families : (∀ body ∈ d.fonts, lastFamily j body = familyOf body) →
    counts.fontFacesRemoved = d.fonts.countP fun body => !j.wantsFont (familyOf body)
  bytes_in : counts.bytesIn = source.utf8ByteSize
  bytes_out : sink'.size = sink.size + counts.bytesOut

/-- The counters of a purge that succeeds account for everything that it decides on. -/
theorem accounts_of_purge {j : Judge} {source : String} {sink : Sink} {counts : Counts}
    (h : (purge j source sink).result = .ok counts) :
    AccountsFor j source sink (purge j source sink).sink counts
      (decisionsIn j false (outline source)) := by
  have hcounts := counts_of_ok h
  have hkept := congrArg Counts.selectorsKept hcounts
  have hremoved := congrArg Counts.selectorsRemoved hcounts
  have hfonts := congrArg Counts.fontFacesRemoved hcounts
  simp only [Decisions.counts] at hkept hremoved hfonts
  constructor
  · rw [hkept, hremoved, List.length_eq_countP_add_countP j.keeps]
    simp
  · exact hkept
  · exact congrArg Counts.rulesetsRemoved hcounts
  · exact congrArg Counts.keyframesRemoved hcounts
  · exact hfonts
  · intro hfamilies
    rw [hfonts]
    exact List.countP_congr fun body hbody => by rw [hfamilies body hbody]
  · exact congrArg Counts.bytesIn hcounts
  · exact size_of_purge h

/-- A list of two selectors of which one is kept, a rule that is removed with the rule in it, and an
animation and a font that nothing uses. -/
theorem accounts_of_purge_mixed :
    let source := "a,b\x7bx:y\x7db\x7b@media print\x7ba\x7b\x7d\x7d\x7d"
      ++ "@keyframes k\x7bto\x7b\x7d\x7d@font-face\x7bfont-family:X\x7d"
    let j : Judge := ⟨.markup [.ofTag "a"], .empty⟩
    let counts : Counts := ⟨1, 2, 1, 1, 1, 71, 6⟩
    AccountsFor j source .unlimited (purge j source .unlimited).sink counts
      (decisionsIn j false (outline source)) := by
  intro source j counts
  exact accounts_of_purge (ok_of_toOption (by decide +kernel))

/-- A font whose own family is in use is counted as removed, since a block inside it tells another
family. -/
theorem font_counted_as_removed :
    let source := "@font-face\x7bfont-family:X;@page\x7bfont-family:Y\x7d\x7d"
    let refs : Usage.References := ⟨[("X", [.ofTag "b"])], []⟩
    let j : Judge := ⟨.markup [.ofTag "b"], refs⟩
    let fonts := (decisionsIn j false (outline source)).fonts
    (purge j source .unlimited).result.toOption.map (·.fontFacesRemoved) = some 1 ∧
      fonts.map familyOf = ["X"] ∧ fonts.countP (fun body => !j.wantsFont (familyOf body)) = 0 := by
  decide +kernel

end StyleSieve.Purge
