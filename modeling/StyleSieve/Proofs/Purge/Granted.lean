import StyleSieve.Proofs.Purge.Animations
import StyleSieve.Proofs.Purge.Tally
import StyleSieve.Proofs.Usage.Presets

/-!
# Selectors that a purge always keeps

A selector that the overrides grant is never removed where a purge decides on it: it is counted as
kept, in whatever state the purge is, and its text is handed on (`KeepsGranted`). The text is
written unless it stands in the definition of a font. There it is written if the definition is, and
nothing is said of definitions that are removed. No selector in the definition of an animation is
decided on, since these are copied or removed as they stand.
-/

namespace StyleSieve.Purge

open Css Usage
open Text (slice)

/-! ## Where selectors are written -/

mutual

/-- The selectors that a purge decides on outside the definitions of fonts that it removes. -/
def exposed (j : Judge) (inFont : Bool) : Node → List Event
  | .ruleset earlier last body _ =>
    earlier ++ [last] ++ if keepsRule j earlier last then exposedIn j inFont body else []
  | .block head body _ =>
    if isKeyframes head.atName then []
    else if isFontFace head.atName && !inFont then
      if j.wantsFont (lastFamily j body) then exposedIn j true body else []
    else exposedIn j inFont body
  | _ => []

def exposedIn (j : Judge) (inFont : Bool) : List Node → List Event
  | [] => []
  | n :: ns => exposed j inFont n ++ exposedIn j inFont ns

end

/-- The text of a selector. -/
def selectorMark (e : Event) : Mark := .text e (.text e.text)

section

variable {j : Judge} {source : String} {e last head : Event} {earlier es : List Event}
  {w w' : Written} {m : Mark}

theorem mem_selectorMarks {comma : Bool} (h : e ∈ es) :
    selectorMark e ∈ selectorMarks comma es := by
  induction es generalizing comma with
  | nil => simp at h
  | cons d es ih =>
    rw [selectorMarks, List.mem_append]
    right
    rcases List.mem_cons.1 h with rfl | h
    · exact List.mem_cons_self
    · exact List.mem_cons_of_mem _ (ih h)

/-- A rule with a selector that is kept is kept. -/
theorem keepsRule_of_mem (he : e ∈ earlier ++ [last]) (hkeeps : j.keeps e = true) :
    keepsRule j earlier last = true := List.any_eq_true.2 ⟨e, he, hkeeps⟩

theorem mem_selectorMarks_of_keeps (he : e ∈ earlier ++ [last]) (hkeeps : j.keeps e = true) :
    selectorMark e ∈ selectorMarks false ((earlier ++ [last]).filter j.keeps) :=
  mem_selectorMarks (List.mem_filter.2 ⟨he, hkeeps⟩)

theorem Written.mem_marks_group (h : m ∈ w.marks) : m ∈ (w.group head).marks := by
  rcases w with ⟨lead, _ | rest⟩
  · exact h
  · rw [Written.marks, List.mem_append] at h ⊢
    simp only [Written.group, Option.map_some, Option.getD_some, List.mem_append] at h ⊢
    rcases h with h | h
    · exact .inl h
    · exact .inr (.inl (.inr h))

end

mutual

/-- Inside the definition of a font a selector that is kept goes into the definition. -/
theorem mem_heldMarks {j : Judge} {source : String} {e : Event} (hkeeps : j.keeps e = true) :
    ∀ {n : Node}, e ∈ exposed j true n → selectorMark e ∈ heldMarks j source n
  | .comment _ => by simp [exposed]
  | .declaration _ => by simp [exposed]
  | .statement _ => by simp [exposed]
  | .ruleset earlier last body _ => fun he => by
    rw [exposed, List.mem_append] at he
    rw [heldMarks]
    rcases he with he | he
    · rw [if_pos (keepsRule_of_mem he hkeeps), List.mem_append]
      exact .inl (mem_selectorMarks_of_keeps he hkeeps)
    · split at he
      · next hrule =>
        rw [if_pos hrule]
        simp [mem_heldMarksIn hkeeps he]
      · simp at he
  | .block head body stop => fun he => by
    rw [exposed, Bool.not_true, Bool.and_false] at he
    rw [heldMarks]
    split at he
    · simp at he
    · next hkeyframes =>
      rw [if_neg hkeyframes]
      have hbody : selectorMark e ∈ heldMarksIn j source body := mem_heldMarksIn hkeeps he
      split <;> simp [hbody]

theorem mem_heldMarksIn {j : Judge} {source : String} {e : Event} (hkeeps : j.keeps e = true) :
    ∀ {ns : List Node}, e ∈ exposedIn j true ns → selectorMark e ∈ heldMarksIn j source ns
  | [] => by simp [exposedIn]
  | n :: ns => fun he => by
    rw [exposedIn, List.mem_append] at he
    rw [heldMarksIn, List.mem_append]
    exact he.imp (mem_heldMarks hkeeps) (mem_heldMarksIn hkeeps)

end

mutual

/-- A selector that is kept is written. -/
theorem mem_written {j : Judge} {source : String} {e : Event} (hkeeps : j.keeps e = true) :
    ∀ {n : Node}, e ∈ exposed j false n → selectorMark e ∈ (written j source n).marks
  | .comment _ => by simp [exposed]
  | .declaration _ => by simp [exposed]
  | .statement _ => by simp [exposed]
  | .ruleset earlier last body _ => fun he => by
    rw [exposed, List.mem_append] at he
    rw [written]
    rcases he with he | he
    · rw [if_pos (keepsRule_of_mem he hkeeps), Written.marks_inside, List.mem_append]
      exact .inl (mem_selectorMarks_of_keeps he hkeeps)
    · split at he
      · next hrule =>
        rw [if_pos hrule]
        simp [mem_writtenIn hkeeps he]
      · simp at he
  | .block head body stop => fun he => by
    rw [exposed, Bool.not_false, Bool.and_true] at he
    rw [written]
    split at he
    · simp at he
    · next hkeyframes =>
      rw [if_neg hkeyframes]
      split at he
      · next hfont =>
        obtain ⟨-, hconditional⟩ := not_other_of_fontFace hfont
        rw [if_neg hconditional, if_pos hfont]
        split at he
        · next hwanted =>
          rw [if_pos (by rw [hwanted, Bool.or_true]), Written.marks_inside, writtenFont,
            if_pos hwanted]
          simp [mem_heldMarksIn hkeeps he]
        · simp at he
      · next hfont =>
        have hbody : selectorMark e ∈ (writtenIn j source body).marks := mem_writtenIn hkeeps he
        rw [if_neg hfont]
        split
        · exact Written.mem_marks_group hbody
        · simp [hbody]

theorem mem_writtenIn {j : Judge} {source : String} {e : Event} (hkeeps : j.keeps e = true) :
    ∀ {ns : List Node}, e ∈ exposedIn j false ns → selectorMark e ∈ (writtenIn j source ns).marks
  | [] => by simp [exposedIn]
  | n :: ns => fun he => by
    rw [exposedIn, List.mem_append] at he
    rw [writtenIn, Written.marks_append, List.mem_append]
    exact he.imp (mem_written hkeeps) (mem_writtenIn hkeeps)

end

/-! ## One selector -/

/-- The output has been handed on, or it waits in the definition of a font. -/
def Handed (s : State) (os : List Output) (o : Output) : Prop :=
  o ∈ os ∨ ∃ face, s.fontFace = some face ∧ o ∈ face.outputs

section

variable {j : Judge} {source : String} {s : State} {e : Event} {os : List Output} {o : Output}

theorem handed_put (ho : o ∈ os) : Handed (s.put os).1 (s.put os).2 o := by
  rcases s with ⟨mode, blocks, retained, _ | face, counts⟩
  · exact .inl ho
  · exact .inr ⟨_, rfl, List.mem_append_left _ (List.mem_reverse.2 ho)⟩

theorem handed_putInside (ho : o ∈ os) : Handed (s.putInside os).1 (s.putInside os).2 o :=
  (handed_put ho).imp_left (List.mem_append_right _)

/-- What has been handed on stays so. -/
theorem Handed.put (h : Handed s os o) (os' : List Output) :
    Handed (s.put os').1 (os ++ (s.put os').2) o := by
  rcases s with ⟨mode, blocks, retained, _ | face, counts⟩
  · exact h.imp_left (List.mem_append_left _)
  · rcases h with h | ⟨_, hface, ho⟩
    · exact .inl (List.mem_append_left _ h)
    · obtain rfl := Option.some.inj hface
      exact .inr ⟨_, rfl, List.mem_append_right _ ho⟩

/-- A selector with a chain that is included is counted as kept and handed on. -/
theorem selector_kept (hkeeps : j.keeps e = true) :
    ∃ t os, s.selector j e = .ok (t, os) ∧ t.mode = s.mode ∧ t.retained = true ∧
      t.counts = { s.counts with selectorsKept := s.counts.selectorsKept + 1 } ∧
      Handed t os (.text e.text) := by
  rw [Judge.keeps] at hkeeps
  split at hkeeps
  · next chain hchain =>
    let next : State := { s with
      retained := true
      counts := { s.counts with selectorsKept := s.counts.selectorsKept + 1 } }
    let os : List Output := (if s.retained then [.text ","] else []) ++ [.text e.text]
    obtain ⟨blocks, face, hput, -⟩ := exists_putInside next os
    refine ⟨(next.putInside os).1, (next.putInside os).2, ?_, by rw [hput], by rw [hput],
      by rw [hput], handed_putInside (by simp [os])⟩
    rw [State.selector, hchain]
    simp only [hkeeps, if_true]
    rfl
  · exact absurd hkeeps Bool.false_ne_true

/-- In whatever state a purge decides on it, such a selector is not removed. -/
theorem step_kept (hmode : s.mode = .keeping)
    (hkind : e.kind = .selector ∨ e.kind = .rulesetStart) (hkeeps : j.keeps e = true) :
    ∃ t os, s.step j source e = .ok (t, os) ∧ t.mode = .keeping ∧
      t.counts = { s.counts with selectorsKept := s.counts.selectorsKept + 1 } ∧
      Handed t os (.text e.text) := by
  obtain ⟨t, os, hselector, hmode', hretained, hcounts, hhanded⟩ := selector_kept (s := s) hkeeps
  rw [step_keeping hmode]
  rcases hkind with hkind | hkind
  · exact ⟨t, os, by rw [State.kept, hkind]; exact hselector, hmode'.trans hmode, hcounts, hhanded⟩
  · have hentered := Handed.put (s := { t with retained := false }) hhanded [.text "\x7b"]
    obtain ⟨face, hput, -⟩ := exists_put { t with retained := false } [.text "\x7b"]
    refine ⟨({ t with retained := false }.put [.text "\x7b"]).1, _, ?_, ?_, ?_, hentered⟩
    · simp only [State.kept, hkind, State.rulesetStart, hselector, hretained, if_true]
    · rw [hput]
      exact hmode'.trans hmode
    · rw [hput]
      exact hcounts

end

/-! ## All sheets -/

/-- The selector can be read, and the overrides grant its chain. -/
def IsGranted (selectors : List String) (e : Event) : Prop :=
  ∃ chain, Selector.parse e.text = .ok chain ∧ Granted selectors chain

/-- A purge keeps the selectors granted. -/
structure KeepsGranted (selectors : List String) (j : Judge) : Prop where
  /-- Wherever a purge decides on one, whether it will succeed or not. -/
  step : ∀ source (s : State) (e : Event), s.mode = .keeping →
    (e.kind = .selector ∨ e.kind = .rulesetStart) → IsGranted selectors e →
    ∃ t os, s.step j source e = .ok (t, os) ∧ t.mode = .keeping ∧
      t.counts = { s.counts with selectorsKept := s.counts.selectorsKept + 1 } ∧
      Handed t os (.text e.text)
  /-- The selectors that a purge has removed are others. -/
  removed : ∀ source sink counts, (purge j source sink).result = .ok counts →
    counts.selectorsRemoved = ((decidedIn j (outline source)).filter (!j.keeps ·)).length ∧
      ∀ e ∈ (decidedIn j (outline source)).filter (!j.keeps ·), ¬ IsGranted selectors e
  /-- The text on the sink has them, each in its place. -/
  written : ∀ source sink counts, (purge j source sink).result = .ok counts →
    ∀ e ∈ exposedIn j false (outline source), IsGranted selectors e →
      ∃ marks marks' separator, marksOf j source = marks ++ selectorMark e :: marks' ∧
        (separator = "" ∨ separator = ";") ∧
        (purge j source sink).sink.text = sink.text ++ textOf (marks.map Mark.output)
          ++ separator ++ e.text ++ textOf (marks'.map Mark.output)

theorem keepsGranted_of_includes {selectors : List String} {j : Judge}
    (h : ∀ chain, Granted selectors chain → j.index.includes chain = true) :
    KeepsGranted selectors j := by
  have hkeeps : ∀ e, IsGranted selectors e → j.keeps e = true := by
    rintro e ⟨chain, hparse, hchain⟩
    rw [Judge.keeps, hparse]
    exact h chain hchain
  refine ⟨fun source s e hmode hkind he => step_kept hmode hkind (hkeeps e he), ?_, ?_⟩
  · intro source sink counts hpurge
    refine ⟨?_, fun e he hgranted => ?_⟩
    · rw [(selectors_of_purge hpurge).2, List.countP_eq_length_filter]
    · have hremoved := (List.mem_filter.1 he).2
      rw [hkeeps e hgranted] at hremoved
      exact absurd hremoved Bool.false_ne_true
  · intro source sink counts hpurge e he hgranted
    have hmark : selectorMark e ∈ marksOf j source := by
      rw [marksOf_eq]
      exact mem_writtenIn (hkeeps e hgranted) he
    obtain ⟨marks, marks', hmarks⟩ := List.append_of_mem hmark
    obtain ⟨separator, htext⟩ := exists_text_of_mark hpurge hmarks
    exact ⟨marks, marks', separator, hmarks, htext⟩

/-- What is listed to be kept is kept, whatever else the configuration holds and whatever the corpus
uses: its index includes the chain of each part of each list, and each chain whose compounds ask for
no more than those of the parts or of the elements that every document has. So a purge by it removes
no such selector that it decides on, and writes it unless the definition of a font around it is
removed. -/
theorem granted_kept {selectors classes ids : List String} {o : Overrides}
    (h : Overrides.compile selectors classes ids = .ok o) (c : Corpus) :
    (∀ s ∈ selectors, ∀ part ∈ listed s, ∃ chain, Selector.parse part = .ok chain ∧
        (c.index o).includes chain = true) ∧
      (∀ chain, Granted selectors chain → (c.index o).includes chain = true) ∧
      ∀ refs, KeepsGranted selectors ⟨c.index o, refs⟩ :=
  ⟨fun _ hs _ hpart => includes_of_mem_listed h c hs hpart, fun _ => includes_of_granted h c,
    fun _ => keepsGranted_of_includes fun _ => includes_of_granted h c⟩

/-- A list of two selectors with a pattern beside it. One compound asks for less than is granted. -/
theorem granted_kept_two_parts :
    let selectors := ["nav.Main > a, #top:hover"]
    ∃ o, Overrides.compile selectors ["^js-"] [] = .ok o ∧
      (∀ part ∈ ["nav.Main > a", "#top:hover"], ∃ chain, Selector.parse part = .ok chain ∧
        (Corpus.empty.index o).includes chain = true) ∧
      (Corpus.empty.index o).includes [.ofTag "nav", .ofTag "body"] = true ∧
      KeepsGranted selectors ⟨Corpus.empty.index o, .empty⟩ := by
  intro selectors
  have hcompiles : (Overrides.compile selectors ["^js-"] []).isOk = true := by decide +kernel
  cases hcompile : Overrides.compile selectors ["^js-"] [] with
  | error e => simp [hcompile, Except.isOk, Except.toBool] at hcompiles
  | ok o =>
    obtain ⟨hparts, hchains, hkeeps⟩ := granted_kept hcompile Corpus.empty
    have hlisted : listed "nav.Main > a, #top:hover" = ["nav.Main > a", "#top:hover"] := by
      decide +kernel
    have hparse : Selector.parse "nav.Main > a"
        = .ok [{ Selector.Compound.ofTag "nav" with classes := .ofList ["main"] }, .ofTag "a"] :=
      ok_of_toOption (by decide +kernel)
    refine ⟨o, rfl, fun part hpart => ?_, hchains _ ⟨by simp, ?_⟩, hkeeps .empty⟩
    · exact hparts _ List.mem_cons_self part (hlisted ▸ hpart)
    · intro c hc
      have hcases : c = .ofTag "nav" ∨ c = .ofTag "body" := by simpa using hc
      rcases hcases with rfl | rfl
      · exact ⟨_, Selector.Compound.asksNoMore_iff.2 (by decide), .inr ⟨_, List.mem_cons_self, _,
          hlisted ▸ List.mem_cons_self, _, hparse, List.mem_cons_self⟩⟩
      · exact ⟨.ofTag "body", Selector.Compound.asksNoMore_iff.2 (by decide), .inl (by simp)⟩

/-- Two selectors that are granted go with the definitions around them, though no rule is removed.
The animation is not wanted and goes as it stands. The font is not wanted either; the selector in it
has been counted as kept. -/
theorem granted_lost_in_definitions :
    let selectors := ["from", ".always"]
    let always := { Selector.Compound.universal with classes := .ofList ["always"] }
    let o : Overrides :=
      ⟨[.ofTag "html", .ofTag "head", .ofTag "body", .ofTag "from", always], [], []⟩
    let j : Judge := ⟨Corpus.empty.index o, .empty⟩
    let inAnimation := "@keyframes k\x7bfrom\x7bx:y\x7d\x7d"
    let inFont := "@font-face\x7bfont-family:X;@media print\x7b.always\x7bcolor:red\x7d\x7d\x7d"
    let loses := fun (source text : String) (counts : Counts) =>
      (∃ e ∈ (events source).events, e.kind = .rulesetStart ∧ IsGranted selectors e) ∧
        (purge j source .unlimited).result = .ok counts ∧
        (purge j source .unlimited).sink.text = text
    Overrides.compile selectors [] [] = .ok o ∧
      loses inAnimation "" ⟨0, 0, 0, 0, 1, 23, 0⟩ ∧
      loses inFont "@media print\x7b" ⟨1, 0, 0, 1, 0, 58, 13⟩ := by
  intro selectors always o j inAnimation inFont loses
  have hpreset : Nodes.ofSelectors (defaultPreset ++ selectors) = .ok o.preset :=
    ok_of_toOption (by decide +kernel)
  have hgranted : ∀ (e : Event) part, e.text = part → part ∈ selectors → part ∈ listed part →
      (Selector.parse part).toOption.isSome → IsGranted selectors e := by
    rintro e part rfl hpart hlisted hread
    obtain ⟨chain, hchain⟩ := Option.isSome_iff_exists.1 hread
    exact ⟨chain, ok_of_toOption hchain,
      granted_of_mem_listed hpart hlisted (ok_of_toOption hchain)⟩
  refine ⟨?_, ⟨⟨⟨.rulesetStart, "from", ["from"], ⟨13, 17⟩⟩, ?_, rfl, ?_⟩, ?_, ?_⟩,
    ⟨⟨.rulesetStart, ".always", [".", "always"], ⟨38, 45⟩⟩, ?_, rfl, ?_⟩, ?_, ?_⟩
  · rw [Overrides.compile, hpreset]
    rfl
  · decide +kernel
  · exact hgranted _ "from" (by decide +kernel) (by decide) (by decide +kernel) (by decide +kernel)
  · exact ok_of_toOption (by decide +kernel)
  · decide +kernel
  · decide +kernel
  · exact hgranted _ ".always" (by decide +kernel) (by decide) (by decide +kernel)
      (by decide +kernel)
  · exact ok_of_toOption (by decide +kernel)
  · decide +kernel

end StyleSieve.Purge
