import StyleSieve.Proofs.Usage.Search
import StyleSieve.Usage.Index

/-!
# Indices that grow

An index comes down to its leaves: it includes a chain if one of them has what each compound of the
chain asks for (`includes_iff_meets`). So neither the order nor the number of times in which
elements, words, patterns, members or compounds are given counts for anything, unions inside unions
may be opened, and whatever is added keeps what was included (`includes_of_grows`). Nothing is said
of the empty chain, which the leaves do not answer alike.
-/

namespace StyleSieve.Usage

open Selector

namespace Index

mutual

/-- The indices that are left when all unions are opened. -/
def leaves : Index → List Index
  | markup nodes => [markup nodes]
  | words set => [words set]
  | classPatterns ps => [classPatterns ps]
  | idPatterns ps => [idPatterns ps]
  | preset nodes => [preset nodes]
  | union members => leavesIn members

def leavesIn : List Index → List Index
  | [] => []
  | i :: is => i.leaves ++ leavesIn is

end

/-- An index that is not a union has what a compound asks for. -/
inductive Meets : Index → Compound → Prop
  | markup {nodes : Nodes} {n x : Compound} (mem : n ∈ nodes) (accepts : x.accepts n = true) :
      Meets (markup nodes) x
  | words {set : WordSet} {x : Compound} (covers : set.covers x = true) : Meets (words set) x
  | classPatterns {ps : PatternSet} {x : Compound} {name : String} (mem : name ∈ x.classes)
      (accepts : ps.accepts name = true) : Meets (classPatterns ps) x
  | idPatterns {ps : PatternSet} {x : Compound} {name : String} (id : x.id = some name)
      (accepts : ps.accepts name = true) : Meets (idPatterns ps) x
  | preset {nodes : Nodes} {n x : Compound} (mem : n ∈ nodes) (accepts : x.accepts n = true) :
      Meets (preset nodes) x

/-- An index grows into another one: what it is made of is moved, repeated or added to, at whatever
depth, and members are taken out of a union inside a union, or put into one. -/
inductive Grows : Index → Index → Prop
  | markup {nodes nodes' : Nodes} (sub : nodes ⊆ nodes') : Grows (markup nodes) (markup nodes')
  | words {set set' : WordSet} (sub : ∀ w ∈ set, w ∈ set') : Grows (words set) (words set')
  | classPatterns {ps ps' : PatternSet} (sub : ps ⊆ ps') :
      Grows (classPatterns ps) (classPatterns ps')
  | idPatterns {ps ps' : PatternSet} (sub : ps ⊆ ps') : Grows (idPatterns ps) (idPatterns ps')
  | preset {nodes nodes' : Nodes} (sub : nodes ⊆ nodes') : Grows (preset nodes) (preset nodes')
  | union {members members' : List Index} (sub : members ⊆ members') :
      Grows (union members) (union members')
  | member {i j : Index} (front back : List Index) (grows : Grows i j) :
      Grows (union (front ++ i :: back)) (union (front ++ j :: back))
  | opened (front inner back : List Index) :
      Grows (union (front ++ union inner :: back)) (union (front ++ inner ++ back))
  | nested (front inner back : List Index) :
      Grows (union (front ++ inner ++ back)) (union (front ++ union inner :: back))
  | trans {i j k : Index} (first : Grows i j) (second : Grows j k) : Grows i k

def isUnion : Index → Bool
  | union _ => true
  | _ => false

/-! ## Leaves -/

mutual

theorem isUnion_of_mem_leaves : ∀ (i : Index), ∀ l ∈ i.leaves, l.isUnion = false
  | markup nodes => by simp [leaves, isUnion]
  | words set => by simp [leaves, isUnion]
  | classPatterns ps => by simp [leaves, isUnion]
  | idPatterns ps => by simp [leaves, isUnion]
  | preset nodes => by simp [leaves, isUnion]
  | union members => by
    rw [leaves]
    exact isUnion_of_mem_leavesIn members

theorem isUnion_of_mem_leavesIn : ∀ (is : List Index), ∀ l ∈ leavesIn is, l.isUnion = false
  | [] => by simp [leavesIn]
  | i :: is => by
    intro l hl
    rw [leavesIn, List.mem_append] at hl
    exact hl.elim (isUnion_of_mem_leaves i l) (isUnion_of_mem_leavesIn is l)

end

mutual

theorem includes_iff_leaf (c : Chain) :
    ∀ i : Index, i.includes c = true ↔ ∃ l ∈ i.leaves, l.includes c = true
  | markup nodes => by simp [leaves]
  | words set => by simp [leaves]
  | classPatterns ps => by simp [leaves]
  | idPatterns ps => by simp [leaves]
  | preset nodes => by simp [leaves]
  | union members => by
    rw [leaves, includes_union]
    exact any_includes_iff_leaf c members

theorem any_includes_iff_leaf (c : Chain) :
    ∀ is : List Index, is.any (·.includes c) = true ↔ ∃ l ∈ leavesIn is, l.includes c = true
  | [] => by simp [leavesIn]
  | i :: is => by
    rw [List.any_cons, Bool.or_eq_true, includes_iff_leaf c i, any_includes_iff_leaf c is, leavesIn]
    simp [or_and_right, exists_or]

end

theorem meets_markup_iff {nodes : Nodes} {x : Compound} :
    (markup nodes).Meets x ↔ ∃ n ∈ nodes, x.accepts n = true :=
  ⟨fun | .markup mem accepts => ⟨_, mem, accepts⟩, fun ⟨_, mem, accepts⟩ => .markup mem accepts⟩

theorem meets_preset_iff {nodes : Nodes} {x : Compound} :
    (preset nodes).Meets x ↔ ∃ n ∈ nodes, x.accepts n = true :=
  ⟨fun | .preset mem accepts => ⟨_, mem, accepts⟩, fun ⟨_, mem, accepts⟩ => .preset mem accepts⟩

theorem meets_words_iff {set : WordSet} {x : Compound} :
    (words set).Meets x ↔ set.covers x = true :=
  ⟨fun | .words covers => covers, .words⟩

theorem meets_classPatterns_iff {ps : PatternSet} {x : Compound} :
    (classPatterns ps).Meets x ↔ ∃ name ∈ x.classes, ps.accepts name = true :=
  ⟨fun | .classPatterns mem accepts => ⟨_, mem, accepts⟩,
    fun ⟨_, mem, accepts⟩ => .classPatterns mem accepts⟩

theorem meets_idPatterns_iff {ps : PatternSet} {x : Compound} :
    (idPatterns ps).Meets x ↔ ∃ name, x.id = some name ∧ ps.accepts name = true :=
  ⟨fun | .idPatterns id accepts => ⟨_, id, accepts⟩,
    fun ⟨_, id, accepts⟩ => .idPatterns id accepts⟩

/-- An index that is not a union includes a chain if it has what each compound asks for. -/
theorem includes_leaf_iff {l : Index} (hl : l.isUnion = false) {c : Chain} (hc : c ≠ []) :
    l.includes c = true ↔ ∀ x ∈ c, l.Meets x := by
  cases l with
  | markup nodes =>
    simp only [includes, Nodes.includes_iff, meets_markup_iff]
    exact and_iff_right hc
  | preset nodes =>
    simp only [includes, Nodes.includes_iff, meets_preset_iff]
    exact and_iff_right hc
  | words set => simp only [includes, WordSet.includes, List.all_eq_true, meets_words_iff]
  | classPatterns ps =>
    simp [includes, PatternSet.includesClasses, meets_classPatterns_iff]
  | idPatterns ps =>
    simp [includes, PatternSet.includesIds, meets_idPatterns_iff, Option.any_eq_true]
  | union members => simp [isUnion] at hl

/-- An index includes a chain if one leaf meets all compounds of it. -/
theorem includes_iff_meets (i : Index) {c : Chain} (hc : c ≠ []) :
    i.includes c = true ↔ ∃ l ∈ i.leaves, ∀ x ∈ c, l.Meets x := by
  rw [includes_iff_leaf]
  refine exists_congr fun l => and_congr_right fun hl => ?_
  exact includes_leaf_iff (isUnion_of_mem_leaves i l hl) hc

/-! ## Growth -/

theorem covers_mono {set set' : WordSet} (h : ∀ w ∈ set, w ∈ set') {x : Compound}
    (hx : set.covers x = true) : set'.covers x = true := by
  have hword : ∀ name, set.contains name = true → set'.contains name = true := by
    simpa [WordSet.contains] using fun name => h (Text.lowerCase name)
  have hnames : ∀ names : List String, names.all set.contains = true →
      names.all set'.contains = true := fun names hall =>
    List.all_eq_true.2 fun name hmem => hword name (List.all_eq_true.1 hall name hmem)
  have hname : ∀ name : Option String, name.all set.contains = true →
      name.all set'.contains = true := by
    rintro (_ | name)
    · exact id
    · exact hword name
  simp only [WordSet.covers, Bool.and_eq_true] at hx ⊢
  obtain ⟨⟨⟨htag, hid⟩, hclasses⟩, hattributes⟩ := hx
  exact ⟨⟨⟨hname _ htag, hname _ hid⟩, hnames _ hclasses⟩, hnames _ hattributes⟩

theorem accepts_mono {ps ps' : PatternSet} (h : ps ⊆ ps') {name : String}
    (hname : ps.accepts name = true) : ps'.accepts name = true := by
  obtain ⟨p, hp, hfinds⟩ := List.any_eq_true.1 hname
  exact List.any_eq_true.2 ⟨p, h hp, hfinds⟩

/-- An index that has grown includes what it included. -/
theorem includes_of_grows {i j : Index} (h : i.Grows j) {c : Chain} (hc : i.includes c = true) :
    j.includes c = true := by
  induction h with
  | markup sub => exact Nodes.includes_mono sub hc
  | preset sub => exact Nodes.includes_mono sub hc
  | words sub =>
    rw [includes, WordSet.includes, List.all_eq_true] at hc ⊢
    exact fun x hx => covers_mono sub (hc x hx)
  | classPatterns sub =>
    rw [includes, PatternSet.includesClasses, List.all_eq_true] at hc ⊢
    intro x hx
    obtain ⟨name, hname, haccepts⟩ := List.any_eq_true.1 (hc x hx)
    exact List.any_eq_true.2 ⟨name, hname, accepts_mono sub haccepts⟩
  | idPatterns sub =>
    rw [includes, PatternSet.includesIds, List.all_eq_true] at hc ⊢
    intro x hx
    obtain ⟨name, hname, haccepts⟩ := (Option.any_eq_true _ _).1 (hc x hx)
    exact (Option.any_eq_true _ _).2 ⟨name, hname, accepts_mono sub haccepts⟩
  | union sub =>
    rw [includes_union, List.any_eq_true] at hc ⊢
    obtain ⟨member, hmember, hincludes⟩ := hc
    exact ⟨member, sub hmember, hincludes⟩
  | member front back _ ih =>
    simp only [includes_union, List.any_append, List.any_cons, Bool.or_eq_true] at hc ⊢
    exact hc.imp_right fun h => h.imp_left ih
  | opened front inner back => simpa [or_assoc] using hc
  | nested front inner back => simpa [or_assoc] using hc
  | trans _ _ first second => exact second (first hc)

/-- How an index answers is settled by what it is made of and by which compounds the chain has: what
is moved or repeated changes nothing, what is added takes nothing away, and but for unions a chain
in two parts is included if both parts are. -/
theorem includes_by_content {i : Index} {c d : Chain} (hc : c ≠ []) (hd : ∀ x, x ∈ c ↔ x ∈ d) :
    (i.includes c = true ↔ ∃ l ∈ i.leaves, ∀ x ∈ c, l.Meets x) ∧
      (∀ j, i.Grows j → i.includes c = true → j.includes d = true) ∧
      (∀ j, i.Grows j → j.Grows i → i.includes c = j.includes d) ∧
      (i.isUnion = false → ∀ e, e ≠ [] →
        i.includes (c ++ e) = (i.includes c && i.includes e)) := by
  have hne : d ≠ [] := by
    obtain ⟨x, hx⟩ := List.exists_mem_of_ne_nil c hc
    exact List.ne_nil_of_mem ((hd x).1 hx)
  have hsame (j : Index) : j.includes c = j.includes d := by
    rw [Bool.eq_iff_iff, includes_iff_meets j hc, includes_iff_meets j hne]
    simp only [hd]
  refine ⟨includes_iff_meets i hc, fun j hgrows hincludes => ?_, fun j hgrows hback => ?_,
    fun hleaf e he => ?_⟩
  · rw [← hsame]
    exact includes_of_grows hgrows hincludes
  · rw [← hsame, Bool.eq_iff_iff]
    exact ⟨includes_of_grows hgrows, includes_of_grows hback⟩
  · rw [Bool.eq_iff_iff, Bool.and_eq_true, includes_leaf_iff hleaf hc, includes_leaf_iff hleaf he,
      includes_leaf_iff hleaf (List.append_ne_nil_of_left_ne_nil hc e)]
    simp only [List.mem_append, or_imp, forall_and]

/-- A union is opened, its members are moved, and one of them is repeated with an element more. -/
theorem includes_by_content_union :
    let a := Compound.ofTag "a"
    let b := Compound.ofTag "b"
    let i := union [union [markup [a, b], words ∅], preset [b]]
    let j := union [preset [b], words ∅, markup [b, a, a], preset [b]]
    (i.includes [a, b] = true ∧ i.Grows j ∧ j.Grows i ∧ i.includes [a, b] = j.includes [b, a, b]) ∧
      (markup [a, b]).includes ([a] ++ [b]) =
        ((markup [a, b]).includes [a] && (markup [a, b]).includes [b]) := by
  intro a b i j
  have hgrows : i.Grows j := by
    refine .trans (.opened [] [markup [a, b], words ∅] [preset [b]]) ?_
    refine .trans (.member [] [words ∅, preset [b]] (.markup (?_ : [a, b] ⊆ [b, a, a]))) ?_
    · simp
    · exact .union (by simp)
  have hback : j.Grows i := by
    refine .trans (j := union [markup [b, a, a], words ∅, preset [b]]) (.union (by simp)) ?_
    refine .trans (.member [] [words ∅, preset [b]] (.markup (?_ : [b, a, a] ⊆ [a, b]))) ?_
    · simp
    · exact .nested [] [markup [a, b], words ∅] [preset [b]]
  have hchain : ∀ x, x ∈ [a, b] ↔ x ∈ [b, a, b] := by
    intro x
    simp only [List.mem_cons, List.not_mem_nil, or_false]
    grind
  refine ⟨⟨by decide, hgrows, hback, ?_⟩, ?_⟩
  · exact (includes_by_content (i := i) (by simp) hchain).2.2.1 j hgrows hback
  · exact (includes_by_content (c := [a]) (by simp) fun x => Iff.rfl).2.2.2 rfl [b] (by simp)

end Index

end StyleSieve.Usage
