import StyleSieve.Proofs.Selector.Grammar
import StyleSieve.Proofs.Usage.Search
import StyleSieve.Usage.Corpus

/-!
# Selectors that are always kept

A preset holds the compounds of the selectors listed for it, in order (`nodesOfParts_ok_iff`). An
index grants what its preset has: a chain is included, whatever the corpus uses, if each compound of
it asks for no more than some compound of these selectors or of those that every document has.
-/

namespace StyleSieve.Selector

/-- A compound asks for no more than another one. Pseudo-classes and pseudo-elements are not looked
at. -/
structure Compound.AsksNoMore (c d : Compound) : Prop where
  tag : ∀ name, c.tag = some name → d.tag = some name
  id : ∀ name, c.id = some name → d.id = some name
  classes : ∀ name ∈ c.classes, name ∈ d.classes
  attributes : ∀ name ∈ c.attributes, name ∈ d.attributes

theorem Compound.asksNoMore_iff {c d : Compound} : c.AsksNoMore d ↔ c.accepts d = true :=
  ⟨fun h => accepts_iff.2 ⟨h.tag, h.id, h.classes, h.attributes⟩, fun h =>
    have ⟨htag, hid, hclasses, hattributes⟩ := accepts_iff.1 h
    ⟨htag, hid, hclasses, hattributes⟩⟩

theorem ne_nil_of_parse {selector : String} {chain : Chain} (h : parse selector = .ok chain) :
    chain ≠ [] := by
  obtain ⟨ps, -, rfl⟩ := parse_ok_iff.1 h
  exact chainOf_ne_nil ps

end StyleSieve.Selector

namespace StyleSieve.Usage

open Selector

/-- The nodes of some parts are the compounds of their chains, and all parts can be read. -/
theorem nodesOfParts_ok_iff {parts : List String} {nodes : Nodes} :
    nodesOfParts parts = .ok nodes ↔
      ∃ chains : List Chain, parts.map parse = chains.map .ok ∧ nodes = chains.flatten := by
  induction parts generalizing nodes with
  | nil =>
    rw [nodesOfParts]
    constructor
    · intro h
      exact ⟨[], rfl, (Except.ok.inj h).symm⟩
    · rintro ⟨chains, hchains, rfl⟩
      obtain rfl : chains = [] := by simpa using hchains.symm
      rfl
  | cons s rest ih =>
    rw [nodesOfParts]
    cases hread : parse s with
    | error cause =>
      constructor
      · simp
      · rintro ⟨chains, hchains, -⟩
        cases chains <;> simp [hread] at hchains
    | ok chain =>
      constructor
      · intro h
        cases hrest : nodesOfParts rest with
        | error e => simp [hrest, Functor.map, Except.map] at h
        | ok more =>
          obtain ⟨chains, hchains, rfl⟩ := ih.1 hrest
          rw [hrest] at h
          obtain rfl : chain ++ chains.flatten = nodes := Except.ok.inj h
          exact ⟨chain :: chains, by simp [hread, hchains], rfl⟩
      · rintro ⟨chains, hchains, rfl⟩
        cases chains with
        | nil => simp at hchains
        | cons first chains =>
          simp only [List.map_cons, hread, List.cons.injEq, Except.ok.injEq] at hchains
          obtain ⟨rfl, hchains⟩ := hchains
          rw [ih.2 ⟨chains, hchains, rfl⟩]
          rfl

/-- The compounds of a part are among the nodes. -/
theorem exists_chain_of_mem {parts : List String} {nodes : Nodes} {part : String}
    (h : nodesOfParts parts = .ok nodes) (hpart : part ∈ parts) :
    ∃ chain, parse part = .ok chain ∧ chain ⊆ nodes := by
  obtain ⟨chains, hchains, rfl⟩ := nodesOfParts_ok_iff.1 h
  have hread : parse part ∈ chains.map .ok := hchains ▸ List.mem_map_of_mem hpart
  obtain ⟨chain, hchain, hparse⟩ := List.mem_map.1 hread
  exact ⟨chain, hparse.symm, fun c hc => List.mem_flatten.2 ⟨chain, hchain, hc⟩⟩

/-- The compounds of a chain ask for no more than compounds of the selectors listed, or of those
that every document has. -/
structure Granted (selectors : List String) (chain : Chain) : Prop where
  nonempty : chain ≠ []
  compounds : ∀ c ∈ chain, ∃ d, c.AsksNoMore d ∧
    (d ∈ [.ofTag "html", .ofTag "head", .ofTag "body"] ∨
      ∃ s ∈ selectors, ∃ part ∈ listed s, ∃ wanted, parse part = .ok wanted ∧ d ∈ wanted)

variable {selectors classes ids : List String} {o : Overrides} {chain : Chain}

theorem granted_of_mem_listed {s part : String} (hs : s ∈ selectors) (hpart : part ∈ listed s)
    (hparse : parse part = .ok chain) : Granted selectors chain :=
  ⟨ne_nil_of_parse hparse, fun c hc => ⟨c, Compound.asksNoMore_iff.2 (Compound.accepts_refl c),
    .inr ⟨s, hs, part, hpart, chain, hparse, hc⟩⟩⟩

theorem preset_of_compile (h : Overrides.compile selectors classes ids = .ok o) :
    nodesOfParts (["html", "head", "body"] ++ selectors.flatMap listed) = .ok o.preset := by
  have hdefault : defaultPreset.flatMap listed = ["html", "head", "body"] := by decide +kernel
  rw [← hdefault, ← List.flatMap_append]
  unfold Overrides.compile Nodes.ofSelectors at h
  split at h
  · simp at h
  · next preset hpreset =>
    split at h
    · simp at h
    · split at h
      · simp at h
      · rw [hpreset, ← Except.ok.inj h]

/-- Every selector listed can be read, and its compounds are in the preset. -/
theorem exists_chain_of_compile (h : Overrides.compile selectors classes ids = .ok o)
    {s part : String} (hs : s ∈ selectors) (hpart : part ∈ listed s) :
    ∃ chain, parse part = .ok chain ∧ chain ⊆ o.preset :=
  exists_chain_of_mem (preset_of_compile h)
    (List.mem_append_right _ (List.mem_flatMap.2 ⟨s, hs, hpart⟩))

theorem default_mem_preset (h : Overrides.compile selectors classes ids = .ok o) {d : Compound}
    (hd : d ∈ [.ofTag "html", .ofTag "head", .ofTag "body"]) : d ∈ o.preset := by
  have hread : ∀ name ∈ ["html", "head", "body"], (parse name).toOption = some [.ofTag name] := by
    decide +kernel
  obtain ⟨name, hname, rfl⟩ : ∃ name ∈ ["html", "head", "body"], Compound.ofTag name = d := by
    simpa [eq_comm] using hd
  obtain ⟨chain, hparse, hsub⟩ := exists_chain_of_mem (preset_of_compile h)
    (List.mem_append_left (selectors.flatMap listed) hname)
  have hchain := hread name hname
  rw [hparse] at hchain
  obtain rfl : chain = [.ofTag name] := Option.some.inj hchain
  exact hsub List.mem_cons_self

/-- What the overrides grant is included in the index of every corpus. -/
theorem includes_of_granted (h : Overrides.compile selectors classes ids = .ok o) (c : Corpus)
    (hchain : Granted selectors chain) : (c.index o).includes chain = true := by
  have hpreset : o.preset.includes chain = true := by
    refine Nodes.includes_iff.2 ⟨hchain.nonempty, fun x hx => ?_⟩
    obtain ⟨d, hasks, hd | ⟨s, hs, part, hpart, wanted, hparse, hd⟩⟩ := hchain.compounds x hx
    · exact ⟨d, default_mem_preset h hd, Compound.asksNoMore_iff.1 hasks⟩
    · obtain ⟨read, hread, hsub⟩ := exists_chain_of_compile h hs hpart
      obtain rfl := Except.ok.inj (hparse.symm.trans hread)
      exact ⟨d, hsub hd, Compound.asksNoMore_iff.1 hasks⟩
  rw [Corpus.index, Index.includes_union, List.any_eq_true]
  exact ⟨.preset o.preset, List.mem_append_right _ List.mem_cons_self, by rwa [Index.includes]⟩

/-- Every selector listed is included in the index of every corpus. -/
theorem includes_of_mem_listed (h : Overrides.compile selectors classes ids = .ok o) (c : Corpus)
    {s part : String} (hs : s ∈ selectors) (hpart : part ∈ listed s) :
    ∃ chain, parse part = .ok chain ∧ (c.index o).includes chain = true := by
  obtain ⟨chain, hparse, -⟩ := exists_chain_of_compile h hs hpart
  exact ⟨chain, hparse, includes_of_granted h c (granted_of_mem_listed hs hpart hparse)⟩

end StyleSieve.Usage
