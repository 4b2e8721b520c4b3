import StyleSieve.Proofs.Usage.Presets

/-!
# Members that are left out

An index leaves out a set of words and sets of patterns that are empty. An empty set of patterns
includes nothing but the empty chain, but a set without words still includes each chain that asks for
no name. The preset, which never is empty, includes such a chain too, so leaving out changes no answer
(`includes_index_iff`). Of the empty chain, which no selector has, this is not said: patterns
include it, and a preset does not.
-/

namespace StyleSieve.Usage

open Text Selector

/-- What an index of a corpus is made of, empty or not. -/
def Corpus.sources (c : Corpus) (o : Overrides) : List Index :=
  [.markup c.nodes, .words c.words, .classPatterns o.classes, .idPatterns o.ids, .preset o.preset]

/-- A member without words or patterns is left out. -/
def Index.isSpare : Index → Bool
  | words set => set.isEmpty
  | classPatterns ps => ps.isEmpty
  | idPatterns ps => ps.isEmpty
  | _ => false

theorem members_eq_filter (c : Corpus) (o : Overrides) :
    c.members o = (c.sources o).filter (!·.isSpare) := by
  have hkeep : ∀ i : Index, [i].filter (!·.isSpare) = if i.isSpare then [] else [i] := by
    intro i
    cases h : i.isSpare <;> simp [h]
  have hsources : c.sources o = [Index.markup c.nodes] ++ [Index.words c.words]
      ++ [Index.classPatterns o.classes] ++ [Index.idPatterns o.ids] ++ [Index.preset o.preset] :=
    rfl
  rw [hsources]
  simp only [List.filter_append, hkeep]
  rfl

/-! ## Empty sets -/

variable {set : WordSet} {ps : PatternSet} {chain : Chain} {x : Compound}

theorem not_contains_of_isEmpty (h : set.isEmpty = true) (word : String) :
    set.contains word = false := by
  rw [NameSet.isEmpty, List.isEmpty_iff] at h
  simp [WordSet.contains, NameSet.mem_def, h]

/-- A compound without names is accepted by every element. -/
theorem accepts_of_covers (h : set.isEmpty = true) (hx : set.covers x = true) (element : Compound) :
    x.accepts element = true := by
  have hnot := fun word => Bool.eq_false_iff.1 (not_contains_of_isEmpty h word)
  simp only [WordSet.covers, Bool.and_eq_true, List.all_eq_true, Option.all_eq_true] at hx
  obtain ⟨⟨⟨htag, hid⟩, hclasses⟩, hattributes⟩ := hx
  exact accepts_iff.2 ⟨fun name hname => absurd (htag name hname) (hnot name),
    fun name hname => absurd (hid name hname) (hnot name),
    fun name hname => absurd (hclasses name hname) (hnot name),
    fun name hname => absurd (hattributes name hname) (hnot name)⟩

theorem not_accepts_of_isEmpty (h : ps.isEmpty = true) (name : String) : ps.accepts name = false := by
  rw [List.isEmpty_iff.1 h]
  rfl

/-- What a spare member includes is included in every preset. -/
theorem includes_preset_of_isSpare {i : Index} (hspare : i.isSpare = true)
    (hi : i.includes chain = true) (hne : chain ≠ []) {nodes : Nodes} (hnodes : nodes ≠ []) :
    nodes.includes chain = true := by
  obtain ⟨n, hn⟩ := List.exists_mem_of_ne_nil nodes hnodes
  obtain ⟨x, hx⟩ := List.exists_mem_of_ne_nil chain hne
  cases i with
  | words set =>
    rw [Index.includes, WordSet.includes, List.all_eq_true] at hi
    exact Nodes.includes_iff.2 ⟨hne, fun x hx => ⟨n, hn, accepts_of_covers hspare (hi x hx) n⟩⟩
  | classPatterns ps =>
    rw [Index.includes, PatternSet.includesClasses, List.all_eq_true] at hi
    obtain ⟨name, -, haccepts⟩ := List.any_eq_true.1 (hi x hx)
    rw [not_accepts_of_isEmpty hspare] at haccepts
    cases haccepts
  | idPatterns ps =>
    rw [Index.includes, PatternSet.includesIds, List.all_eq_true] at hi
    obtain ⟨name, -, haccepts⟩ := (Option.any_eq_true _ _).1 (hi x hx)
    rw [not_accepts_of_isEmpty hspare] at haccepts
    cases haccepts
  | markup _ | preset _ | union _ => cases hspare

/-- The index of a corpus includes a chain just when one of its sources does, empty ones among
them. -/
theorem includes_index_iff {selectors classes ids : List String} {o : Overrides}
    (h : Overrides.compile selectors classes ids = .ok o) (c : Corpus) (hne : chain ≠ []) :
    (c.index o).includes chain = true ↔ ∃ i ∈ c.sources o, i.includes chain = true := by
  rw [Corpus.index, Index.includes_union, List.any_eq_true, members_eq_filter]
  constructor
  · rintro ⟨i, hi, hincludes⟩
    exact ⟨i, (List.mem_filter.1 hi).1, hincludes⟩
  · rintro ⟨i, hi, hincludes⟩
    cases hspare : i.isSpare with
    | false => exact ⟨i, List.mem_filter.2 ⟨hi, by simp [hspare]⟩, hincludes⟩
    | true =>
      -- The preset takes the place of the member that is left out.
      have hnodes : o.preset ≠ [] :=
        List.ne_nil_of_mem (default_mem_preset h (d := .ofTag "html") List.mem_cons_self)
      refine ⟨.preset o.preset, List.mem_filter.2 ⟨by simp [Corpus.sources], rfl⟩, ?_⟩
      rw [Index.includes]
      exact includes_preset_of_isSpare hspare hincludes hne hnodes

/-- A corpus without words: the empty set of words includes `:hover`, and the index does without
it. -/
theorem includes_index_hover :
    let chain : Chain := [{ Compound.universal with pseudoClasses := ["hover"] }]
    ∃ o, Overrides.compile [] ["^js-"] [] = .ok o ∧ chain ≠ [] ∧
      (Index.words Corpus.empty.words).includes chain = true ∧
      (Corpus.empty.index o).includes chain = true := by
  intro chain
  have hne : chain ≠ [] := by simp [chain]
  have hwords : (Index.words Corpus.empty.words).includes chain = true := by
    rw [Index.includes]
    decide
  have hcompiles : (Overrides.compile [] ["^js-"] []).isOk = true := by decide +kernel
  cases hcompile : Overrides.compile [] ["^js-"] [] with
  | error e => simp [hcompile, Except.isOk, Except.toBool] at hcompiles
  | ok o =>
    exact ⟨o, rfl, hne, hwords, (includes_index_iff hcompile Corpus.empty hne).2
      ⟨.words Corpus.empty.words, by simp [Corpus.sources], hwords⟩⟩

end StyleSieve.Usage
