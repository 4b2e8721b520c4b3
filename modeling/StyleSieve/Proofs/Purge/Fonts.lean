import StyleSieve.Proofs.Purge.Brackets
import StyleSieve.Proofs.Usage.Survey

/-!
# Fonts of rules that are kept

The definition of a font is written if a rule that is kept lists its family
(`fontFace_written_of_rule`), as long as the references were taken from the same stylesheet. A
family is read with the priority flag that may follow it, an empty name is not recorded, and what a
rule declares after a rule inside it is lost; these cases are left out.
-/

namespace StyleSieve.Purge

open Css Usage
open Text (sameAscii slice)

/-! ## The definition of a font -/

/-- The definition of a font as it stands before its end. -/
def definitionOf (j : Judge) (source : String) (head : Event) (body : List Node) : Held :=
  ((Draft.writeIn j source body ⟨[], [], some ⟨headMarks head, ""⟩⟩).held).getD ⟨[], ""⟩

/-- The definition of a font is its head with what its body adds, wherever it stands. -/
theorem definitionOf_eq (j : Judge) (source : String) (head : Event) (body : List Node) :
    definitionOf j source head body
      = ⟨headMarks head ++ heldMarksIn j source body, lastFamily j body⟩ := by
  rw [definitionOf, write_of_held_in j source rfl]
  rfl

/-! ## Fonts that are written -/

/-- The head of a conditional group. -/
def conditional (e : Event) : Bool := isConditional e.atName

theorem keyframes_iff_plainName {name : String} :
    isKeyframes name = true ↔ plainName name = "keyframes" := by
  rw [isKeyframes, Text.sameAscii_iff, plainName]
  have hlower : Text.lowerAscii "keyframes" = "keyframes" := by decide
  rw [hlower]

theorem not_keyframes_of_conditional {name : String} (h : isConditional name) :
    ¬ isKeyframes name = true := by
  rw [keyframes_iff_plainName]
  intro hname
  rw [isConditional, hname] at h
  exact absurd h (by decide)

theorem not_other_of_fontFace {name : String} (h : isFontFace name) :
    ¬ isKeyframes name = true ∧ ¬ isConditional name = true := by
  have hname : plainName name = "font-face" := by simpa [isFontFace] using h
  rw [keyframes_iff_plainName, isConditional, hname]
  decide

/-- The definition of a font with its end. -/
def fontMarks (j : Judge) (source : String) (head : Event) (body : List Node) : List Mark :=
  (definitionOf j source head body).marks ++ [.closes head]

theorem out_put {d : Draft} (h : d.held = none) (ms : List Mark) :
    (d.put ms).out = d.out ++ ms := by
  simp [Draft.put, h]

theorem out_putInside {d : Draft} (h : d.held = none) (ms : List Mark) :
    (d.putInside ms).out = d.out ++ openings d.pending ++ ms := by
  simp [Draft.putInside, Draft.openAll, Draft.put, h]

section

variable {j : Judge} {source : String} {ns body front back : List Node}
  {head stop : Event} {d : Draft} {ms : List Mark}

theorem writeIn_append (j : Judge) (source : String) (ns ns' : List Node) (d : Draft) :
    Draft.writeIn j source (ns ++ ns') d
      = Draft.writeIn j source ns' (Draft.writeIn j source ns d) := by
  induction ns generalizing d with
  | nil => rw [List.nil_append, Draft.writeIn]
  | cons n ns ih => rw [List.cons_append, Draft.writeIn, Draft.writeIn, ih]

/-- What is out stays out. -/
theorem out_writeIn (j : Judge) (source : String) (ns : List Node) (hheld : d.held = none) :
    (Draft.writeIn j source ns d).held = none ∧ d.out <+: (Draft.writeIn j source ns d).out := by
  rw [write_of_none_in j source hheld]
  exact ⟨rfl, by simp [Draft.extend, List.append_assoc]⟩

/-- What one of some nodes writes is part of what they write. -/
theorem infix_writeIn {n : Node} (hn : n ∈ ns) (hheld : d.held = none)
    (h : ∀ d : Draft, d.held = none → ms <:+: (Draft.write j source n d).out) :
    ms <:+: (Draft.writeIn j source ns d).out := by
  obtain ⟨front, back, rfl⟩ := List.append_of_mem hn
  have hheldFront := (out_writeIn j source front hheld).1
  have hheldNode : (Draft.write j source n (Draft.writeIn j source front d)).held = none := by
    rw [write_of_none j source hheldFront]
    rfl
  rw [writeIn_append, Draft.writeIn]
  exact (h _ hheldFront).trans (out_writeIn j source back hheldNode).2.isInfix

/-- What a node writes wherever no font is held back is part of what is written if the node is
reached through conditional groups. -/
theorem infix_of_reaches {n : Node} (hheld : d.held = none)
    (hreaches : Node.Reaches conditional ns n)
    (h : ∀ d : Draft, d.held = none → ms <:+: (Draft.write j source n d).out) :
    ms <:+: (Draft.writeIn j source ns d).out := by
  induction hreaches generalizing d with
  | here hmem => exact infix_writeIn hmem hheld h
  | @inside ns group outer stop n hmem lets _ ih =>
    refine infix_writeIn hmem hheld fun d hheld => ?_
    rw [Draft.write, if_neg (not_keyframes_of_conditional lets), if_pos (by exact lets)]
    have hinner := ih (d := { d with pending := d.pending ++ [outer] }) hheld h
    have hheldInner := (out_writeIn j source group
      (d := { d with pending := d.pending ++ [outer] }) hheld).1
    dsimp only
    split
    · rw [out_put hheldInner]
      exact hinner.trans (List.prefix_append _ _).isInfix
    · exact hinner

/-- The definition of a font that is wanted is written in one piece. -/
theorem fontMarks_infix (hheld : d.held = none)
    (hface : Node.Reaches conditional ns (.block head body stop)) (hname : isFontFace head.atName)
    (hwanted : j.wantsFont (lastFamily j body)) :
    fontMarks j source head body <:+: (Draft.writeIn j source ns d).out := by
  refine infix_of_reaches hheld hface fun d hheld => ?_
  obtain ⟨hkeyframes, hconditional⟩ := not_other_of_fontFace hname
  rw [write_of_none j source hheld, written, if_neg hkeyframes, if_neg hconditional, if_pos hname,
    if_pos (by rw [hwanted, Bool.or_true]), fontMarks, definitionOf_eq]
  simp only [Draft.extend, Written.inside, writtenFont, if_pos hwanted, Option.getD_some]
  exact ((List.suffix_append _ _).trans (List.suffix_append _ _)).isInfix

end

/-! ## Families that rules list -/

/-- A text without the priority flag at its end, if it has one. -/
def dropPriority (text : String) : String :=
  let backwards := text.toList.reverse.dropWhile Text.isBlank
  if (backwards.take 9).map Char.toLower = "tnatropmi".toList then
    match (backwards.drop 9).dropWhile Text.isBlank with
    | '!' :: rest => String.ofList rest.reverse
    | _ => text
  else text

/-- The family that one part of a list of families means. -/
def listedFamily (part : List String) : String := fontName (dropPriority (String.join part))

theorem mem_fontsIn {values part : List String} (h : part ∈ splitAtCommas values)
    (hname : fontName (String.join part) ≠ "") : fontName (String.join part) ∈ fontsIn values := by
  rw [fontsIn, List.mem_filter]
  refine ⟨List.mem_map_of_mem h, ?_⟩
  simpa using hname

/-- A selector that is kept and a declaration that lists the family share a stretch. -/
def Served (j : Judge) (source family : String) : Prop :=
  ∃ es ∈ stretches source, family ∈ namesIn familiesOf es ∧ ∃ x ∈ es, isSelector x ∧ j.keeps x

theorem exists_included_iff (j : Judge) {es : List Event} :
    (∃ c ∈ chainsIn es, j.index.includes c) ↔ ∃ x ∈ es, isSelector x ∧ j.keeps x := by
  simp only [chainsIn, selectorsIn, List.mem_filterMap, List.mem_filter, Judge.keeps]
  constructor
  · rintro ⟨c, ⟨x, ⟨hx, hselector⟩, hparse⟩, hincludes⟩
    refine ⟨x, hx, hselector, ?_⟩
    cases hread : Selector.parse x.text with
    | error fault => simp [hread, Except.toOption] at hparse
    | ok chain =>
      obtain rfl : chain = c := by simpa [hread, Except.toOption] using hparse
      exact hincludes
  · rintro ⟨x, hx, hselector, hkeeps⟩
    cases hread : Selector.parse x.text with
    | error fault => simp [hread] at hkeeps
    | ok chain =>
      exact ⟨chain, ⟨x, ⟨hx, hselector⟩, by rw [hread]; rfl⟩, by simpa [hread] using hkeeps⟩

/-- A font is wanted just if its family is served. -/
theorem wantsFont_iff_served {index : Index} {source : String} {refs : References}
    (h : References.ofSheet source = .ok refs) (family : String) :
    (Judge.mk index refs).wantsFont family ↔ Served ⟨index, refs⟩ source family := by
  have hwanted := fontWanted_iff h index family
  simp only [exists_included_iff ⟨index, refs⟩] at hwanted
  exact hwanted

/-- A rule that is kept serves the families that it lists before any rule inside it, unless the name
is empty. -/
theorem served_of_rule {j : Judge} {source : String} {earlier : List Event} {last e stop : Event}
    {before after : List Node} {part : List String} (herror : (events source).error = none)
    (hrule : Node.Reaches notKeyframes (outline source)
      (.ruleset earlier last (before ++ .declaration e :: after) stop))
    (hkept : keepsRule j earlier last) (hkind : e.kind = .declaration)
    (hfont : isFontFamily e.data) (hpart : part ∈ splitAtCommas e.values)
    (hnonempty : fontName (String.join part) ≠ "")
    (hbefore : ∀ n, Node.Reaches notKeyframes before n → n.isRule = false) :
    Served j source (fontName (String.join part)) := by
  obtain ⟨es, hes, hselectors, hnames⟩ :=
    exists_stretch_of_rule (outline_fits herror) hrule hbefore
  obtain ⟨x, hx, hkeeps⟩ := List.any_eq_true.1 hkept
  refine ⟨es, hes, hnames familiesOf _ ?_, x, (hselectors x hx).1, (hselectors x hx).2, hkeeps⟩
  rw [familiesOf, hkind, hfont]
  exact mem_fontsIn hpart hnonempty

/-! ## Text of a definition -/

theorem fontMarks_eq (j : Judge) (source : String) (head : Event) (body : List Node) :
    fontMarks j source head body
      = headMarks head ++ (heldMarksIn j source body ++ [.closes head]) := by
  rw [fontMarks, definitionOf_eq, List.append_assoc]

/-- Marks that begin with the head of a block leave their text in one piece. -/
theorem textOf_infix {ms all rest : List Mark} {head : Event} (h : ms <:+: all)
    (hhead : ms = headMarks head ++ rest) : ∃ before after,
      textOf (all.map Mark.output) = before ++ textOf (ms.map Mark.output) ++ after := by
  obtain ⟨front, back, rfl⟩ := h
  have hms : ms.map Mark.output = .text head.prelude :: .text "\x7b" :: rest.map Mark.output := by
    rw [hhead, List.map_append]
    rfl
  have hpiece (due : Bool) : textFrom due (ms.map Mark.output)
      = (if due then ";" else "") ++ textOf (ms.map Mark.output) := by
    simp only [hms, textOf_eq, textFrom_text]
    simp [String.append_assoc]
  refine ⟨textFrom false (front.map Mark.output)
      ++ (if dueAfter false (front.map Mark.output) then ";" else ""),
    textFrom (dueAfter false ((front ++ ms).map Mark.output)) (back.map Mark.output), ?_⟩
  rw [List.map_append, textOf_eq, textFrom_append, List.map_append, textFrom_append, hpiece]
  simp [String.append_assoc]

/-- The definition of a font is written in one piece if a rule that is kept lists its family, has no
rule inside it before that, and gives the family a name and no priority flag. In general a font is
wanted just if its family is served. -/
theorem fontFace_written_of_rule {index : Index} {source : String} {refs : References} {sink : Sink}
    {counts : Counts} {earlier : List Event} {last e stop head stop' : Event}
    {before after body : List Node} {part : List String}
    (hrefs : References.ofSheet source = .ok refs)
    (hpurge : (purge ⟨index, refs⟩ source sink).result = .ok counts)
    (hrule : Node.Reaches notKeyframes (outline source)
      (.ruleset earlier last (before ++ .declaration e :: after) stop))
    (hkept : keepsRule ⟨index, refs⟩ earlier last) (hkind : e.kind = .declaration)
    (hfont : isFontFamily e.data) (hpart : part ∈ splitAtCommas e.values)
    (hface : Node.Reaches conditional (outline source) (.block head body stop'))
    (hname : isFontFace head.atName)
    (hfamily : lastFamily ⟨index, refs⟩ body = listedFamily part)
    (hflag : dropPriority (String.join part) = String.join part)
    (hnonempty : listedFamily part ≠ "")
    (hbefore : ∀ n, Node.Reaches notKeyframes before n → n.isRule = false) :
    fontMarks ⟨index, refs⟩ source head body <:+: marksOf ⟨index, refs⟩ source ∧
      (∃ front back, (purge ⟨index, refs⟩ source sink).sink.text
        = front ++ textOf ((fontMarks ⟨index, refs⟩ source head body).map Mark.output) ++ back) ∧
      ∀ family, (Judge.mk index refs).wantsFont family ↔ Served ⟨index, refs⟩ source family := by
  have hread : fontName (String.join part) = listedFamily part := by rw [listedFamily, hflag]
  obtain ⟨herror, htext⟩ := purge_text_marksOf hpurge
  have hserved := served_of_rule herror hrule hkept hkind hfont hpart (by rwa [hread]) hbefore
  have hwanted := (wantsFont_iff_served hrefs _).2 hserved
  rw [hread, ← hfamily] at hwanted
  have hmarks : fontMarks ⟨index, refs⟩ source head body <:+: marksOf ⟨index, refs⟩ source :=
    fontMarks_infix rfl hface hname hwanted
  refine ⟨hmarks, ?_, wantsFont_iff_served hrefs⟩
  obtain ⟨front, back, hpieces⟩ := textOf_infix hmarks (fontMarks_eq ⟨index, refs⟩ source head body)
  exact ⟨sink.text ++ front, back, by rw [htext, hpieces]; simp [String.append_assoc]⟩

/-- A font in a group is written for a rule that lists it second. -/
theorem fontFace_written_in_group :
    let source := "@media print\x7b@font-face\x7bfont-family:X\x7d\x7da\x7bfont-family:Y,X\x7d"
    let refs : References := ⟨[("Y", [.ofTag "a"]), ("X", [.ofTag "a"])], []⟩
    ∃ front back, (purge ⟨.markup [.ofTag "a"], refs⟩ source .unlimited).sink.text
      = front ++ "@font-face\x7bfont-family:X\x7d" ++ back := by
  intro source refs
  have hrefs : References.ofSheet source = .ok refs := ok_of_toOption (by decide +kernel)
  obtain ⟨counts, hpurge⟩ : ∃ counts,
      (purge ⟨.markup [.ofTag "a"], refs⟩ source .unlimited).result = .ok counts :=
    exists_counts_of_isOk (by decide +kernel)
  let group : Event := ⟨.blockStart, "@media", ["print"], ⟨0, 12⟩⟩
  let face : Event := ⟨.blockStart, "@font-face", [], ⟨13, 23⟩⟩
  let told : Event := ⟨.declaration, "font-family", ["X"], ⟨24, 37⟩⟩
  let faceEnd : Event := ⟨.blockEnd, "\x7d", [], ⟨37, 38⟩⟩
  let groupEnd : Event := ⟨.blockEnd, "\x7d", [], ⟨38, 39⟩⟩
  let rule : Event := ⟨.rulesetStart, "a", ["a"], ⟨39, 40⟩⟩
  let listed : Event := ⟨.declaration, "font-family", ["Y", ",", "X"], ⟨41, 56⟩⟩
  let ruleEnd : Event := ⟨.rulesetEnd, "\x7d", [], ⟨56, 57⟩⟩
  have hevents : (events source).events
      = [group, face, told, faceEnd, groupEnd, rule, listed, ruleEnd] := by decide +kernel
  have houtline : outline source = [.block group [.block face [.declaration told] faceEnd] groupEnd,
      .ruleset [] rule ([] ++ .declaration listed :: []) ruleEnd] := by
    rw [outline, hevents]
    rfl
  have hrule : Node.Reaches notKeyframes (outline source)
      (.ruleset [] rule ([] ++ .declaration listed :: []) ruleEnd) := by
    rw [houtline]
    exact .here (by simp)
  have hface : Node.Reaches conditional (outline source)
      (.block face [.declaration told] faceEnd) := by
    rw [houtline]
    exact .inside (List.mem_cons_self) (by decide +kernel) (.here List.mem_cons_self)
  have hbefore : ∀ n, Node.Reaches notKeyframes [] n → n.isRule = false := by
    rintro n (h | ⟨h, -, -⟩) <;> simp at h
  have hpart : ["X"] ∈ splitAtCommas listed.values := by decide +kernel
  obtain ⟨-, htext, -⟩ := fontFace_written_of_rule hrefs hpurge hrule (by decide +kernel) rfl
    (by decide +kernel) hpart hface (by decide +kernel) (by decide +kernel) (by decide +kernel)
    (by decide +kernel) hbefore
  have hfont : textOf ((fontMarks ⟨.markup [.ofTag "a"], refs⟩ source face
      [.declaration told]).map Mark.output) = "@font-face\x7bfont-family:X\x7d" := by
    decide +kernel
  rwa [hfont] at htext

/-- A font is dropped, though the rule that uses it is kept, for a priority flag, for a rule inside
the rule, and for an empty name. -/
theorem fontFace_lost :
    let purged := fun source => (References.ofSheet source).toOption.bind fun refs =>
      let purged := purge ⟨.markup [.ofTag "a"], refs⟩ source .unlimited
      purged.result.toOption.map fun _ => purged.sink.text
    purged "@font-face\x7bfont-family:Foo\x7da\x7bfont-family:Foo!important\x7d"
        = some "a\x7bfont-family:Foo!important\x7d" ∧
      listedFamily ["Foo", "!", "important"] = "Foo" ∧
      purged ("@font-face\x7bfont-family:Foo\x7d"
          ++ "a\x7b@media print\x7bb\x7bcolor:red\x7d\x7dfont-family:Foo\x7d")
        = some "a\x7bfont-family:Foo\x7d" ∧
      purged "@font-face\x7bfont-family:\"\"\x7da\x7bfont-family:\"\"\x7d"
        = some "a\x7bfont-family:\"\"\x7d" := by
  decide +kernel

end StyleSieve.Purge
