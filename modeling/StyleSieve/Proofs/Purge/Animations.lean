import StyleSieve.Proofs.Css.Places
import StyleSieve.Proofs.Purge.Fonts
import StyleSieve.Proofs.Usage.Attribution

/-!
# Animations of rules that are kept

The definitions of an animation stay as they stand in the source if a rule that is kept lists its
name among the components of an animation declaration (`keyframes_written_of_rule`). The references
may have come from more stylesheets than this one. Stylesheets in which a rule stands inside another
one are left out, as are definitions inside blocks other than conditional groups.
-/

namespace StyleSieve.Purge

open Css Usage
open Text (unquote slice)

/-- A block as it stands in the source. -/
def blockText (source : String) (head stop : Event) : String :=
  slice source head.span.start stop.span.stop

/-- The definition of an animation as it is written. -/
def keyframesMark (source : String) (head stop : Event) : Mark :=
  .text head (.text (blockText source head stop))

section

variable {j : Judge} {source : String} {ns body : List Node} {head stop : Event} {d : Draft}

/-- The definition of an animation that is wanted is written. -/
theorem keyframesMark_infix (hheld : d.held = none)
    (hreaches : Node.Reaches conditional ns (.block head body stop))
    (hname : isKeyframes head.atName) (hwanted : j.wantsAnimation head) :
    [keyframesMark source head stop] <:+: (Draft.writeIn j source ns d).out := by
  refine infix_of_reaches hheld hreaches fun d hheld => ?_
  rw [Draft.write, if_pos hname, if_pos hwanted, out_putInside hheld]
  exact (List.suffix_append _ _).isInfix

/-- The events of a node stand next to each other among those of the nodes it is reached from. -/
theorem events_infix_of_reaches {through : Event → Bool} {n : Node}
    (h : Node.Reaches through ns n) : n.events <:+: Node.eventsIn ns := by
  induction h with
  | @here ns n hmem =>
    obtain ⟨front, back, rfl⟩ := List.append_of_mem hmem
    exact ⟨Node.eventsIn front, Node.eventsIn back, by simp [Node.eventsIn_append]⟩
  | @inside ns body head stop n hmem _ _ ih =>
    obtain ⟨front, back, rfl⟩ := List.append_of_mem hmem
    refine ih.trans ⟨Node.eventsIn front ++ [head], stop :: Node.eventsIn back, ?_⟩
    simp [Node.eventsIn_append]

/-- A block runs from where its beginning starts to where its end stops. -/
theorem exists_append_block {through : Event → Bool} (herror : (events source).error = none)
    (hreaches : Node.Reaches through (outline source) (.block head body stop)) :
    ∃ front back, source = front ++ blockText source head stop ++ back ∧
      front.utf8ByteSize = head.span.start ∧
      (front ++ blockText source head stop).utf8ByteSize = stop.span.stop := by
  obtain ⟨before, after, hevents⟩ := events_infix_of_reaches hreaches
  rw [outline_events herror, Node.events_block] at hevents
  have hsplit : (events source).events
      = (before ++ head :: Node.eventsIn body) ++ stop :: after := by simp [← hevents]
  have hhead : Covers source head := covers_of_mem_events (by simp [hsplit])
  have hstop : Covers source stop := covers_of_mem_events (by simp [hsplit])
  have hle := stop_le_stop hsplit (d := head) (by simp)
  exact Text.exists_append_slice hhead.start hstop.stop (Nat.le_trans hhead.le hle)

end

/-! ## Names that rules list -/

/-- A rule with no rule inside it lists for its own selectors. -/
theorem mem_chains_of_rule {source name : String} {refs : References} {r : Rule} {e : Event}
    {c : Selector.Chain} (hrefs : References.ofSheet source = .ok refs)
    (hrule : r ∈ rulesIn (outline source)) (hflat : rulesIn r.body = [])
    (hdeclared : e ∈ surveyedIn r.body) (hlists : ListsAnimation name e)
    (hchain : HasChain r.selectors c) : c ∈ refs.animations.chains name := by
  obtain ⟨herror, rfl⟩ := ofSheet_eq hrefs
  have hstands := stands_of_mem_rulesIn (outline_fits herror) r hrule
  have hbare := bare_of_surveyedIn hstands.fits hflat
  obtain ⟨before, after, hsplit⟩ := List.append_of_mem hdeclared
  refine (mem_chains_iff fun e => mem_animationsOf_iff).2 ?_
  exact hstands.attests hsplit (fun x hx => hbare x (by simp [hsplit, hx])) hlists hlists.1 hchain

/-- A name that is listed by a rule that is kept is wanted, whatever else is recorded. -/
theorem wanted_of_rule {index : Index} {source name : String} {refs before after : References}
    {r : Rule} {e : Event} (hrefs : References.ofSheet source = .ok refs)
    (hrule : r ∈ rulesIn (outline source)) (hflat : rulesIn r.body = [])
    (hkept : r.selectors.any (Judge.keeps ⟨index, before ++ refs ++ after⟩))
    (hdeclared : e ∈ surveyedIn r.body) (hlists : ListsAnimation name e) :
    (before ++ refs ++ after).animationWanted index name := by
  obtain ⟨x, hx, hkeeps⟩ := List.any_eq_true.1 hkept
  cases hread : Selector.parse x.text with
  | error fault => simp [Judge.keeps, hread] at hkeeps
  | ok chain =>
    have hchain : HasChain r.selectors chain := ⟨x, hx, by rw [hread]; rfl⟩
    have hmem := mem_chains_of_rule hrefs hrule hflat hdeclared hlists hchain
    rw [References.animationWanted, NameUses.wanted, List.any_eq_true]
    refine ⟨chain, ?_, by simpa [Judge.keeps, hread] using hkeeps⟩
    simp [References.append_def, hmem]

/-- A text among outputs stands between the texts of the others, after a separator if one is due. -/
theorem textOf_append_text (os os' : List Output) (t : String) :
    textOf (os ++ .text t :: os')
      = textOf os ++ (if dueAfter false os then ";" else "") ++ t ++ textOf os' := by
  rw [textOf_eq, textFrom_append, textFrom_text, textOf_eq, textOf_eq]
  simp only [String.append_assoc]

/-- The text of a mark stands on the sink after a purge that succeeds. -/
theorem exists_text_of_mark {j : Judge} {source : String} {sink : Sink} {counts : Counts}
    {owner : Event} {t : String} {marks marks' : List Mark}
    (h : (purge j source sink).result = .ok counts)
    (hmarks : marksOf j source = marks ++ .text owner (.text t) :: marks') :
    ∃ separator, (separator = "" ∨ separator = ";") ∧
      (purge j source sink).sink.text = sink.text ++ textOf (marks.map Mark.output)
        ++ separator ++ t ++ textOf (marks'.map Mark.output) := by
  obtain ⟨-, htext⟩ := purge_text_marksOf h
  refine ⟨if dueAfter false (marks.map Mark.output) then ";" else "", ?_, ?_⟩
  · split
    · exact .inr rfl
    · exact .inl rfl
  · rw [htext, hmarks, List.map_append, List.map_cons, Mark.output, textOf_append_text]
    simp only [String.append_assoc]

/-- A rule that is kept keeps the definitions of the animations that it lists, at the top level and
inside conditional groups: each is written between what is written before it and after it, as its
block stands in the source. A rule lists a name if one of the values of an animation declaration in
it is the name without quotes around it; spaces and commas between values are none. -/
theorem keyframes_written_of_rule {index : Index} {source name : String}
    {refs before after : References} {sink : Sink} {counts : Counts} {r : Rule}
    {e head stop : Event} {body : List Node} (hrefs : References.ofSheet source = .ok refs)
    (hflat : ∀ r ∈ rulesIn (outline source), rulesIn r.body = [])
    (hpurge : (purge ⟨index, before ++ refs ++ after⟩ source sink).result = .ok counts)
    (hrule : r ∈ rulesIn (outline source))
    (hkept : r.selectors.any (Judge.keeps ⟨index, before ++ refs ++ after⟩))
    (hdeclared : e ∈ surveyedIn r.body) (hlists : ListsAnimation name e)
    (hreaches : Node.Reaches conditional (outline source) (.block head body stop))
    (hkeyframes : isKeyframes head.atName) (hname : unquote head.text = name) :
    (∃ front back, source = front ++ blockText source head stop ++ back ∧
        front.utf8ByteSize = head.span.start ∧
        (front ++ blockText source head stop).utf8ByteSize = stop.span.stop) ∧
      ∃ marks marks' separator,
        marksOf ⟨index, before ++ refs ++ after⟩ source
          = marks ++ keyframesMark source head stop :: marks' ∧
        (separator = "" ∨ separator = ";") ∧
        (purge ⟨index, before ++ refs ++ after⟩ source sink).sink.text
          = sink.text ++ textOf (marks.map Mark.output) ++ separator
            ++ blockText source head stop ++ textOf (marks'.map Mark.output) := by
  obtain ⟨herror, -⟩ := purge_text_marksOf hpurge
  have hwanted : (Judge.mk index (before ++ refs ++ after)).wantsAnimation head := by
    rw [Judge.wantsAnimation, hname]
    exact wanted_of_rule hrefs hrule (hflat r hrule) hkept hdeclared hlists
  obtain ⟨marks, marks', hmarks⟩ := keyframesMark_infix (d := .start) rfl hreaches hkeyframes
    hwanted
  have hsplit : marksOf ⟨index, before ++ refs ++ after⟩ source
      = marks ++ keyframesMark source head stop :: marks' := by
    rw [marksOf, ← hmarks, List.append_assoc, List.singleton_append]
  obtain ⟨separator, htext⟩ := exists_text_of_mark hpurge hsplit
  exact ⟨exists_append_block herror hreaches, marks, marks', separator, hsplit, htext⟩

/-- A prefixed definition in a group, before the rule that lists it. References of another
stylesheet come first. -/
theorem keyframes_written_in_group :
    let source := "@media print\x7b@-webkit-keyframes \"k\"\x7b\x7d\x7da\x7b-moz-Animation:k 1s\x7d"
    let refs : References := ⟨[], [("k", [.ofTag "a"]), ("1s", [.ofTag "a"])]⟩
    let others : References := ⟨[], [("k", [.ofTag "b"])]⟩
    let j : Judge := ⟨.markup [.ofTag "a"], others ++ refs ++ .empty⟩
    ∃ front back, (purge j source .unlimited).sink.text
      = front ++ "@-webkit-keyframes \"k\"\x7b\x7d" ++ back := by
  intro source refs others j
  have hrefs : References.ofSheet source = .ok refs := ok_of_toOption (by decide +kernel)
  obtain ⟨counts, hpurge⟩ : ∃ counts, (purge j source .unlimited).result = .ok counts :=
    exists_counts_of_isOk (by decide +kernel)
  let group : Event := ⟨.blockStart, "@media", ["print"], ⟨0, 12⟩⟩
  let keyframes : Event := ⟨.blockStart, "@-webkit-keyframes", ["\"k\""], ⟨13, 35⟩⟩
  let keyframesEnd : Event := ⟨.blockEnd, "\x7d", [], ⟨36, 37⟩⟩
  let groupEnd : Event := ⟨.blockEnd, "\x7d", [], ⟨37, 38⟩⟩
  let last : Event := ⟨.rulesetStart, "a", ["a"], ⟨38, 39⟩⟩
  let listed : Event := ⟨.declaration, "-moz-Animation", ["k", " ", "1s"], ⟨40, 59⟩⟩
  let ruleEnd : Event := ⟨.rulesetEnd, "\x7d", [], ⟨59, 60⟩⟩
  have hevents : (events source).events
      = [group, keyframes, keyframesEnd, groupEnd, last, listed, ruleEnd] := by decide +kernel
  have houtline : outline source = [.block group [.block keyframes [] keyframesEnd] groupEnd,
      .ruleset [] last [.declaration listed] ruleEnd] := by
    rw [outline, hevents]
    rfl
  have hrules : rulesIn (outline source) = [⟨[last], [.declaration listed]⟩] := by
    have hgroup : isKeyframes group.atName = false := by decide +kernel
    have hkeyframes : isKeyframes keyframes.atName = true := by decide +kernel
    rw [houtline]
    simp [rulesIn, rules, hgroup, hkeyframes]
  have hreaches : Node.Reaches conditional (outline source) (.block keyframes [] keyframesEnd) := by
    rw [houtline]
    exact .inside List.mem_cons_self (by decide +kernel) (.here List.mem_cons_self)
  have hlists : ListsAnimation "k" listed := by decide +kernel
  obtain ⟨-, marks, marks', separator, -, -, htext⟩ := keyframes_written_of_rule hrefs
    (by rw [hrules]; decide) hpurge (by rw [hrules]; exact List.mem_cons_self)
    (by decide +kernel) (e := listed) (by decide +kernel) hlists hreaches
    (by decide +kernel) (by decide +kernel)
  have hblock : blockText source keyframes keyframesEnd = "@-webkit-keyframes \"k\"\x7b\x7d" := by
    decide +kernel
  rw [hblock] at htext
  exact ⟨_, _, htext⟩

end StyleSieve.Purge
