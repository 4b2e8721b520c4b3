import StyleSieve.Proofs.Markup.StartTag
import StyleSieve.Proofs.Selector.Spelling
import StyleSieve.Proofs.Text.Words
import StyleSieve.Proofs.Usage.Search

/-!
# Elements and the selectors that they satisfy

A selector whose compounds are satisfied by elements of a document is included in its nodes, except
where a test cannot be relied on (`includes_iff_reliable`): an identifier is not kept among the
attributes, and a class is cut at every blank though only ASCII white space parts classes. Quotes
around names and attributes that are written twice are left out.
-/

namespace StyleSieve.Usage

open Css Markup Selector
open Text (lowerCase unquote runs words isBlank)

/-! ## What an element satisfies -/

/-- White space between the classes of an element. -/
def isListSpace (c : Char) : Bool := isTagSpace c || c == '\x0c'

/-- The classes of an element as they are written. -/
def classesIn (tag : StartTag) : List String :=
  runs (!isListSpace ·) ((tag.valueOf "class").getD "")

/-- The element of a start tag satisfies a test, with letter case folded. -/
def Satisfies (tag : StartTag) : Test → Prop
  | .type name => lowerCase name = lowerCase tag.name
  | .anything => True
  | .id name => (tag.valueOf "id").map lowerCase = some (lowerCase name)
  | .className name => ∃ word ∈ classesIn tag, lowerCase word = lowerCase name
  | .carries name => (tag.valueOf (lowerCase name)).isSome = true

instance (tag : StartTag) : DecidablePred (Satisfies tag)
  | .type _ => inferInstanceAs (Decidable (_ = _))
  | .anything => inferInstanceAs (Decidable True)
  | .id _ => inferInstanceAs (Decidable (_ = _))
  | .className name =>
    inferInstanceAs (Decidable (∃ word ∈ classesIn tag, lowerCase word = lowerCase name))
  | .carries _ => inferInstanceAs (Decidable (_ = true))

/-- Every attribute is written once, and no quotes stand around names. -/
structure Plain (tag : StartTag) : Prop where
  once : (tag.attributes.map Attribute.folded).Nodup
  id : ∀ value ∈ tag.valueOf "id", unquote value = value
  classes : ∀ word ∈ classesIn tag, unquote word = word

/-- Elements that satisfy the test are known to do so. -/
def Reliable : Test → Prop
  | .carries name => lowerCase name ≠ "id"
  | .className name => name.toList.any isBlank = false
  | _ => True

instance : DecidablePred Reliable
  | .carries _ => inferInstanceAs (Decidable (_ ≠ _))
  | .className _ => inferInstanceAs (Decidable (_ = _))
  | .type _ | .anything | .id _ => inferInstanceAs (Decidable True)

/-! ## What an element offers -/

variable {tag : StartTag} {test : Test}

theorem exists_attribute_of_valueOf {name value : String} (h : tag.valueOf name = some value) :
    ∃ a before after, tag.attributes = before ++ a :: after ∧ a.folded = name ∧
      String.ofList a.value = value := by
  obtain ⟨a, hfind, rfl⟩ := Option.map_eq_some_iff.1 h
  obtain ⟨ha, before, after, has, -⟩ := List.find?_eq_some_iff_append.1 hfind
  exact ⟨a, before, after, has, by simpa using ha, rfl⟩

theorem id_element {value : String} (hplain : Plain tag) (h : tag.valueOf "id" = some value) :
    tag.element.id = some (lowerCase value) := by
  obtain ⟨a, before, after, has, ha, rfl⟩ := exists_attribute_of_valueOf h
  have honce := hplain.once
  rw [has, List.map_append, List.map_cons] at honce
  have hafter : ∀ b ∈ after, b.folded ≠ "id" := by
    intro b hb hid
    have := (List.nodup_append.1 honce).2.1
    rw [List.nodup_cons] at this
    exact this.1 (List.mem_map.2 ⟨b, hb, hid.trans ha.symm⟩)
  rw [StartTag.element, has, id_foldl_append ha hafter, plainValue, hplain.id _ h]

theorem not_isListSpace_of_not_isBlank {c : Char} (h : isBlank c = false) :
    (!isListSpace c) = true := by
  rw [Bool.not_eq_true', Bool.eq_false_iff]
  intro hspace
  simp only [isListSpace, isTagSpace, Bool.or_eq_true, beq_iff_eq] at hspace
  rcases hspace with (((rfl | rfl) | rfl) | rfl) | rfl <;> exact absurd h (by decide)

/-- A class without blanks is a word of the attribute, and is kept as it is. -/
theorem mem_classes_element {word : String} (hplain : Plain tag) (h : word ∈ classesIn tag)
    (hblank : word.toList.any isBlank = false) : lowerCase word ∈ tag.element.classes := by
  cases hvalue : tag.valueOf "class" with
  | none => simp [classesIn, hvalue, runs, Text.runsFrom] at h
  | some value =>
    have hquotes := hplain.classes word h
    rw [classesIn, hvalue, Option.getD_some] at h
    have hword : word ∈ words value := by
      refine Text.mem_words_of_mem_runs (fun _ => not_isListSpace_of_not_isBlank) h fun c hc => ?_
      simpa using List.any_eq_false.1 hblank c hc
    obtain ⟨a, before, after, has, ha, rfl⟩ := exists_attribute_of_valueOf hvalue
    refine mem_classes_foldl.2 (.inr ⟨a, by simp [has], ha, ?_⟩)
    refine List.mem_filter.2 ⟨List.mem_map.2 ⟨word, hword, ?_⟩, ?_⟩
    · rw [plainValue, hquotes]
    · simpa using Text.lowerCase_ne_empty (Text.ne_empty_of_mem_runs h)

theorem not_isBlank_of_mem_classes {name : String} (h : name ∈ tag.element.classes) :
    name.toList.any isBlank = false := by
  rcases mem_classes_foldl.1 h with h | ⟨a, -, -, h⟩
  · exact absurd h (Text.NameSet.not_mem_empty name)
  · obtain ⟨word, hword, rfl⟩ := List.mem_map.1 (List.mem_filter.1 h).1
    rw [plainValue, Text.any_isBlank_lowerCase]
    refine Text.any_isBlank_unquote (List.any_eq_false.2 fun c hc => ?_)
    simpa using Text.not_isBlank_of_mem_words hword c hc

theorem mem_attributes_element {name : String} :
    name ∈ tag.element.attributes ↔
      (tag.valueOf name).isSome = true ∧ name ≠ "id" ∧ name ≠ "class" := by
  have hcarried : (tag.valueOf name).isSome = true ↔ ∃ a ∈ tag.attributes, a.folded = name := by
    simp [StartTag.valueOf]
  rw [StartTag.element, mem_attributes_foldl, hcarried]
  constructor
  · rintro (h | ⟨a, ha, hname, hother⟩)
    · exact absurd h (Text.NameSet.not_mem_empty name)
    · exact ⟨⟨a, ha, hname⟩, hother⟩
  · rintro ⟨⟨a, ha, hname⟩, hother⟩
    exact .inr ⟨a, ha, hname, hother⟩

/-- An element offers whatever it satisfies and can be relied on. -/
theorem metBy_element (hplain : Plain tag) (h : Satisfies tag test) (hreliable : Reliable test) :
    test.part.MetBy tag.element := by
  cases test with
  | type name =>
    have htag : tag.element.tag = some (lowerCase tag.name) := tag_foldl
    exact htag.trans (congrArg some (Eq.symm h))
  | anything => trivial
  | id name =>
    obtain ⟨value, hvalue, hfold⟩ := Option.map_eq_some_iff.1 h
    exact (id_element hplain hvalue).trans (congrArg some hfold)
  | className name =>
    obtain ⟨word, hword, hfold⟩ := h
    have hblank : word.toList.any isBlank = false := by
      rw [← Text.any_isBlank_lowerCase, hfold, Text.any_isBlank_lowerCase]
      exact hreliable
    have hmem := mem_classes_element hplain hword hblank
    rwa [hfold] at hmem
  | carries name =>
    by_cases hclass : lowerCase name = "class"
    · exact .inl (by simp [hclass, volatileAttributes])
    · exact .inr (mem_attributes_element.2 ⟨h, hreliable, hclass⟩)

/-- An element is accepted by no compound with a test that cannot be relied on. -/
theorem reliable_of_accepts {tests : List Test}
    (h : (compoundOf tests).accepts tag.element = true) (htest : test ∈ tests) : Reliable test := by
  obtain ⟨-, -, hclasses, hattributes⟩ := accepts_iff.1 h
  cases test with
  | type name => trivial
  | anything => trivial
  | id name => trivial
  | className name =>
    have hblank := not_isBlank_of_mem_classes (hclasses _ (mem_classes_compoundOf htest))
    rwa [Text.any_isBlank_lowerCase] at hblank
  | carries name =>
    intro hid
    have hvolatile : lowerCase name ∉ volatileAttributes := by simp [hid, volatileAttributes]
    have hmem := hattributes _ (mem_attributes_compoundOf htest hvolatile)
    exact (mem_attributes_element.1 hmem).2.1 hid

/-! ## Inclusion -/

/-- A selector whose compounds are satisfied by elements of a document is read, and its chain is
included in the nodes of the document exactly if every test in it can be relied on. -/
theorem includes_iff_reliable {source selector : String} {nodes : Nodes}
    {compounds : List (List Test)} (hnodes : elements source = .ok nodes)
    (hspells : Spells (spelling selector) compounds)
    (hsatisfied : ∀ tests ∈ compounds, ∃ tag ∈ startTags source,
      Plain tag ∧ ∀ test ∈ tests, Satisfies tag test) :
    ∃ chain, parse selector = .ok chain ∧
      (nodes.includes chain = true ↔ ∀ tests ∈ compounds, ∀ test ∈ tests, Reliable test) := by
  refine ⟨chainFor compounds, parse_of_spells hspells, ?_⟩
  have hmem : ∀ tag ∈ startTags source, tag.element ∈ nodes := by
    intro tag htag
    rw [elements_eq hnodes]
    exact List.mem_map_of_mem htag
  have hsome : ∃ n ∈ nodes, Compound.universal.accepts n = true := by
    obtain ⟨tests, htests⟩ := List.exists_mem_of_ne_nil _ hspells.ne_nil
    obtain ⟨tag, htag, -⟩ := hsatisfied tests htests
    exact ⟨_, hmem tag htag, Compound.universal_accepts _⟩
  rw [Nodes.includes_iff, and_iff_right (chainFor_ne_nil compounds),
    forall_mem_chainFor (P := fun c => ∃ n ∈ nodes, c.accepts n = true) hsome]
  constructor
  · intro h tests htests test htest
    obtain ⟨n, hn, haccepts⟩ := h tests htests
    rw [elements_eq hnodes] at hn
    obtain ⟨tag, -, rfl⟩ := List.mem_map.1 hn
    exact reliable_of_accepts haccepts htest
  · intro h tests htests
    obtain ⟨tag, htag, hplain, hall⟩ := hsatisfied tests htests
    refine ⟨_, hmem tag htag, accepts_compoundOf fun test htest => ?_⟩
    exact metBy_element hplain (hall test htest) (h tests htests test htest)

/-- A list and a link in it have what the two compounds of a selector ask for. -/
theorem includes_list_link :
    let source := "<ul class=nav><a class=\"item On\" data-x=y>"
    ∃ nodes : Nodes, elements source = .ok nodes ∧ ∃ chain, parse "UL > .on[data-x=y]" = .ok chain ∧
      nodes.includes chain = true := by
  intro source
  obtain ⟨nodes, hnodes⟩ : ∃ nodes, elements source = .ok nodes := by
    have hok : (elements source).isOk = true := by decide +kernel
    cases h : elements source with
    | ok nodes => exact ⟨nodes, rfl⟩
    | error e => simp [h, Except.isOk, Except.toBool] at hok
  let list : StartTag := ⟨"ul", [⟨"class".toList, "nav".toList⟩]⟩
  let link : StartTag := ⟨"a", [⟨"class".toList, "item On".toList⟩, ⟨"data-x".toList, ['y']⟩]⟩
  have htags : startTags source = [list, link] := by decide +kernel
  have hspells : Spells (spelling "UL > .on[data-x=y]")
      [[.type "UL"], [.className "on", .carries "data-x"]] := by
    have hlexemes : lexemes "UL > .on[data-x=y]".toList = [⟨.ident "UL", ['U', 'L']⟩,
        ⟨.whitespace " ", [' ']⟩, ⟨.delim '>', ['>']⟩, ⟨.whitespace " ", [' ']⟩,
        ⟨.delim '.', ['.']⟩, ⟨.ident "on", ['o', 'n']⟩, ⟨.opening .square, ['[']⟩,
        ⟨.ident "data-x", "data-x".toList⟩, ⟨.delim '=', ['=']⟩, ⟨.ident "y", ['y']⟩,
        ⟨.closing .square, [']']⟩] := by decide +kernel
    let gap : List Tree := [.leaf ⟨.whitespace " ", [' ']⟩, .leaf ⟨.delim '>', ['>']⟩,
      .leaf ⟨.whitespace " ", [' ']⟩]
    let block : Tree := .block ⟨.opening .square, ['[']⟩ [.leaf ⟨.ident "data-x", "data-x".toList⟩,
      .leaf ⟨.delim '=', ['=']⟩, .leaf ⟨.ident "y", ['y']⟩] (some ⟨.closing .square, [']']⟩)
    have htrees : spelling "UL > .on[data-x=y]" = [.leaf ⟨.ident "UL", ['U', 'L']⟩] ++ gap
        ++ ([.leaf ⟨.delim '.', ['.']⟩, .leaf ⟨.ident "on", ['o', 'n']⟩] ++ [block]) := by
      rw [spelling, Tree.ofText, hlexemes]
      rfl
    rw [htrees]
    exact .joined (.one (.type rfl)) (by simp [gap]) (by decide)
      (.one (.more (.className rfl rfl) (.one (.carries rfl (.compared rfl rfl)))))
  have hlist : Plain list ∧ ∀ test ∈ [Test.type "UL"], Satisfies list test :=
    ⟨⟨by decide +kernel, by decide +kernel, by decide +kernel⟩, by decide +kernel⟩
  have hlink : Plain link ∧ ∀ test ∈ [.className "on", .carries "data-x"], Satisfies link test :=
    ⟨⟨by decide +kernel, by decide +kernel, by decide +kernel⟩, by decide +kernel⟩
  have hsatisfied : ∀ tests ∈ [[Test.type "UL"], [.className "on", .carries "data-x"]],
      ∃ tag ∈ startTags source, Plain tag ∧ ∀ test ∈ tests, Satisfies tag test := by
    rw [htags]
    intro tests htests
    rcases List.mem_cons.1 htests with rfl | htests
    · exact ⟨list, by simp, hlist⟩
    · rw [List.mem_singleton.1 htests]
      exact ⟨link, by simp, hlink⟩
  obtain ⟨chain, hchain, hiff⟩ := includes_iff_reliable hnodes hspells hsatisfied
  exact ⟨nodes, hnodes, chain, hchain, hiff.2 (by decide +kernel)⟩

/-- Two selectors are not included though an element satisfies them: a link that has an identifier
is not found by its attribute, and a class with a blank that is not ASCII is not found at all. -/
theorem not_includes_id_attribute :
    let link : StartTag := ⟨"a", [⟨['i', 'd'], ['x']⟩]⟩
    let item : StartTag := ⟨"a", [⟨"class".toList, ['b', '\u00a0', 'c']⟩]⟩
    let lost := fun (source selector : String) =>
      (elements source).toOption.bind fun nodes =>
        (parse selector).toOption.map fun chain => Nodes.includes nodes chain
    (startTags "<a id=\"x\">" = [link] ∧ Plain link ∧
      Spells (spelling "a[id]") [[.type "a", .carries "id"]] ∧
      (∀ test ∈ [.type "a", .carries "id"], Satisfies link test) ∧
      lost "<a id=\"x\">" "a[id]" = some false) ∧
    startTags "<a class=\"b\u00a0c\">" = [item] ∧ Plain item ∧
      Spells (spelling ".b\u00a0c") [[.className "b\u00a0c"]] ∧
      Satisfies item (.className "b\u00a0c") ∧
      lost "<a class=\"b\u00a0c\">" ".b\u00a0c" = some false := by
  intro link item lost
  have hid : lexemes "a[id]".toList = [⟨.ident "a", ['a']⟩, ⟨.opening .square, ['[']⟩,
      ⟨.ident "id", ['i', 'd']⟩, ⟨.closing .square, [']']⟩] := by decide +kernel
  have hclass : lexemes ".b\u00a0c".toList = [⟨.delim '.', ['.']⟩,
      ⟨.ident "b\u00a0c", ['b', '\u00a0', 'c']⟩] := by decide +kernel
  refine ⟨⟨by decide +kernel, ⟨by decide +kernel, by decide +kernel, by decide +kernel⟩, ?_,
    by decide +kernel, by decide +kernel⟩, by decide +kernel,
    ⟨by decide +kernel, by decide +kernel, by decide +kernel⟩, ?_, by decide +kernel,
    by decide +kernel⟩
  · rw [spelling, Tree.ofText, hid]
    exact .one (show SpellsCompound ([_] ++ [_]) _ from
      .more (.type rfl) (.one (.carries rfl .present)))
  · rw [spelling, Tree.ofText, hclass]
    exact .one (.one (.className rfl rfl))

end StyleSieve.Usage
