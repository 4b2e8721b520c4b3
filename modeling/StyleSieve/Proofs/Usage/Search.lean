import StyleSieve.Usage.Nodes

/-!
# Searching nodes for a chain

The pass over the nodes keeps a flag for each compound of the chain and the number of compounds that
are left. Between two nodes the flags say which compounds accept one of the nodes passed, and the
number is that of the flags not set (`pass_eq`). So it never falls below zero, and what is included
does not depend on the order or the number of the nodes (`search_decides`).
-/

namespace StyleSieve.Usage

open Selector

namespace Search

/-- The search with some flags and as many compounds left as are not set. -/
def ofFlags (flags : List Bool) : Search := ⟨flags, flags.count false⟩

/-- Some node is accepted by the compound. -/
def met (nodes : Nodes) (c : Compound) : Bool := nodes.any c.accepts

/-- The flags of a chain after some nodes. -/
def flags (nodes : Nodes) (chain : Chain) : List Bool := chain.map (met nodes)

/-- How a pass stands with these flags: it has ended if all are set. -/
def standing (flags : List Bool) : Except Stop Search :=
  if false ∈ flags then .ok (ofFlags flags) else .error .complete

theorem met_concat (nodes : Nodes) (n c : Compound) :
    met (nodes ++ [n]) c = (met nodes c || c.accepts n) := by
  simp [met]

theorem met_iff {nodes : Nodes} {c : Compound} :
    met nodes c = true ↔ ∃ n ∈ nodes, c.accepts n = true := List.any_eq_true

theorem not_mem_flags_iff {nodes : Nodes} {chain : Chain} :
    false ∉ flags nodes chain ↔ ∀ c ∈ chain, ∃ n ∈ nodes, c.accepts n = true := by
  simp only [flags, List.mem_map, not_exists, not_and, Bool.not_eq_false, met_iff]

/-- Flags that are set stay set. -/
theorem not_mem_flags_append {nodes : Nodes} {chain : Chain} (h : false ∉ flags nodes chain)
    (more : Nodes) : false ∉ flags (nodes ++ more) chain := by
  rw [not_mem_flags_iff] at h ⊢
  intro c hc
  obtain ⟨n, hn, haccepts⟩ := h c hc
  exact ⟨n, List.mem_append_left more hn, haccepts⟩

theorem standing_of_mem {fs : List Bool} (h : false ∈ fs) : standing fs = .ok (ofFlags fs) :=
  if_pos h

theorem standing_of_not_mem {fs : List Bool} (h : false ∉ fs) : standing fs = .error .complete :=
  if_neg h

/-! ## One node -/

/-- A node is held against one compound, after some and before others. -/
theorem visit_eq (node c : Compound) (before after : List Bool) (flag : Bool)
    (h : false ∈ before ++ flag :: after) :
    visit node (ofFlags (before ++ flag :: after)) (c, before.length)
      = standing (before ++ (flag || c.accepts node) :: after) := by
  have hflag : (before ++ flag :: after)[before.length]? = some flag := by simp
  rw [visit, ofFlags, hflag]
  cases flag with
  | true => rw [Bool.true_or, standing_of_mem h, ofFlags]
  | false =>
    have hset : (before ++ false :: after).set before.length true = before ++ true :: after := by
      simp
    have hcount : (before ++ false :: after).count false
        = (before ++ true :: after).count false + 1 := by
      simp
      omega
    cases haccepts : c.accepts node with
    | false =>
      rw [Bool.or_false, standing_of_mem h]
      rfl
    | true =>
      rw [Bool.or_true, hset, hcount]
      by_cases hleft : false ∈ before ++ true :: after
      · obtain ⟨n, hn⟩ := Nat.exists_eq_add_one.2 (List.count_pos_iff.2 hleft)
        rw [standing_of_mem hleft, ofFlags, hn]
        rfl
      · rw [standing_of_not_mem hleft, List.count_eq_zero.2 hleft]
        rfl

/-- A node is held against the compounds from some position on. -/
theorem foldlM_visit (nodes : Nodes) (node : Compound) (seen rest : Chain)
    (h : false ∈ flags (nodes ++ [node]) seen ++ flags nodes rest) :
    (rest.zipIdx seen.length).foldlM (visit node)
        (ofFlags (flags (nodes ++ [node]) seen ++ flags nodes rest))
      = standing (flags (nodes ++ [node]) (seen ++ rest)) := by
  induction rest generalizing seen with
  | nil =>
    simp only [flags, List.map_nil, List.append_nil] at h ⊢
    exact (standing_of_mem h).symm
  | cons c rest ih =>
    have hvisit := visit_eq node c (flags (nodes ++ [node]) seen) (flags nodes rest)
      (met nodes c) h
    have hflags : flags (nodes ++ [node]) seen ++ met (nodes ++ [node]) c :: flags nodes rest
        = flags (nodes ++ [node]) (seen ++ [c]) ++ flags nodes rest := by simp [flags]
    have hlength : (flags (nodes ++ [node]) seen).length = seen.length := List.length_map ..
    rw [hlength, ← met_concat, hflags] at hvisit
    have hstep : ((c :: rest).zipIdx seen.length).foldlM (visit node)
          (ofFlags (flags (nodes ++ [node]) seen ++ flags nodes (c :: rest)))
        = (standing (flags (nodes ++ [node]) (seen ++ [c]) ++ flags nodes rest)).bind
          ((rest.zipIdx (seen.length + 1)).foldlM (visit node)) := by
      rw [List.zipIdx_cons, List.foldlM_cons, ← hvisit]
      rfl
    rw [hstep, List.append_cons seen c rest]
    by_cases hleft : false ∈ flags (nodes ++ [node]) (seen ++ [c]) ++ flags nodes rest
    · have hrest := ih (seen ++ [c]) hleft
      rw [List.length_append, List.length_singleton] at hrest
      rw [standing_of_mem hleft]
      exact hrest
    · have hall : false ∉ flags (nodes ++ [node]) (seen ++ [c] ++ rest) := by
        rw [List.mem_append, not_or] at hleft
        rw [flags, List.map_append, List.mem_append, not_or]
        exact ⟨hleft.1, not_mem_flags_append hleft.2 [node]⟩
      rw [standing_of_not_mem hleft, standing_of_not_mem hall]
      rfl

/-- What a node more does to the flags. -/
theorem sweep_eq {nodes : Nodes} {chain : Chain} (node : Compound)
    (h : false ∈ flags nodes chain) :
    sweep chain (ofFlags (flags nodes chain)) node = standing (flags (nodes ++ [node]) chain) :=
  foldlM_visit nodes node [] chain h

/-! ## All nodes -/

theorem foldlM_sweep (before nodes : Nodes) {chain : Chain} (h : false ∈ flags before chain) :
    nodes.foldlM (sweep chain) (ofFlags (flags before chain))
      = standing (flags (before ++ nodes) chain) := by
  induction nodes generalizing before with
  | nil =>
    rw [List.append_nil]
    exact (standing_of_mem h).symm
  | cons n nodes ih =>
    rw [List.foldlM_cons, sweep_eq n h, List.append_cons before n nodes]
    by_cases hleft : false ∈ flags (before ++ [n]) chain
    · rw [standing_of_mem hleft]
      exact ih (before ++ [n]) hleft
    · -- The pass has ended here, and the nodes behind it would unset no flag.
      rw [standing_of_not_mem hleft, standing_of_not_mem (not_mem_flags_append hleft nodes)]
      rfl

theorem start_eq (chain : Chain) : start chain.length = ofFlags (flags [] chain) := by
  have hnone : flags [] chain = List.replicate chain.length false := List.map_const' ..
  rw [hnone, ofFlags, start, List.count_replicate_self]

/-- A pass ends with the node that is accepted by the last compound left. Until then the flags say
which compounds accept one of the nodes, and as many compounds are left as flags are not set. -/
theorem pass_eq {chain : Chain} (h : chain ≠ []) (nodes : Nodes) :
    pass nodes chain = standing (flags nodes chain) := by
  obtain ⟨c, hc⟩ := List.exists_mem_of_ne_nil chain h
  rw [pass, start_eq]
  exact foldlM_sweep [] nodes (List.mem_map.2 ⟨c, hc, rfl⟩)

/-- Nothing can be found for a chain without compounds. -/
theorem pass_nil (nodes : Nodes) : pass nodes [] = .ok (start 0) := by
  rw [pass]
  induction nodes with
  | nil => rfl
  | cons n nodes ih => exact ih

end Search

namespace Nodes

theorem includes_iff {nodes : Nodes} {chain : Chain} :
    nodes.includes chain = true ↔ chain ≠ [] ∧ ∀ c ∈ chain, ∃ n ∈ nodes, c.accepts n = true := by
  by_cases hchain : chain = []
  · subst hchain
    simp [includes, Search.pass_nil]
  · rw [includes, Search.pass_eq hchain, and_iff_right hchain, ← Search.not_mem_flags_iff]
    by_cases hleft : false ∈ Search.flags nodes chain
    · simp [Search.standing_of_mem hleft, hleft]
    · simp [Search.standing_of_not_mem hleft, hleft]

/-- More elements include more chains. -/
theorem includes_mono {nodes nodes' : Nodes} (h : nodes ⊆ nodes') {chain : Chain}
    (hincludes : nodes.includes chain = true) : nodes'.includes chain = true := by
  rw [includes_iff] at hincludes ⊢
  refine ⟨hincludes.1, fun c hc => ?_⟩
  obtain ⟨n, hn, haccepts⟩ := hincludes.2 c hc
  exact ⟨n, h hn, haccepts⟩

/-- The pass over the nodes includes a chain if and only if every compound of it accepts some node.
It never asks for a position that the chain does not have, nor counts below zero. While it goes on,
the number of compounds left is that of the flags not set, and there is such a flag. So the nodes
count only as a set. -/
theorem search_decides {chain : Chain} (h : chain ≠ []) (nodes : Nodes) :
    (nodes.includes chain = true ↔ ∀ c ∈ chain, ∃ n ∈ nodes, c.accepts n = true) ∧
      Search.pass nodes chain ≠ .error .fault ∧
      (∀ s, Search.pass nodes chain = .ok s → s.pending = s.found.count false ∧ 0 < s.pending ∧
        s.found = chain.map fun c => nodes.any c.accepts) ∧
      ∀ nodes' : Nodes, (∀ n, n ∈ nodes ↔ n ∈ nodes') →
        nodes.includes chain = nodes'.includes chain := by
  have hpass := Search.pass_eq h nodes
  refine ⟨?_, ?_, ?_, fun nodes' hsame => ?_⟩
  · rw [includes_iff, and_iff_right h]
  · rw [hpass, Search.standing]
    split <;> simp
  · intro s hs
    rw [hpass, Search.standing] at hs
    split at hs
    · next hleft =>
      obtain rfl := Except.ok.inj hs
      exact ⟨rfl, List.count_pos_iff.2 hleft, rfl⟩
    · simp at hs
  · rw [Bool.eq_iff_iff]
    exact ⟨includes_mono fun n => (hsame n).1, includes_mono fun n => (hsame n).2⟩

/-- One node serves two compounds of three, of which two are equal; the last node is not needed. -/
theorem search_decides_repeated :
    let item : Compound := { Compound.ofTag "li" with classes := .ofList ["on"] }
    let chain : Chain := [.ofTag "ul", .ofTag "li", .ofTag "li"]
    let nodes : Nodes := [item, .ofTag "ul", .ofTag "a"]
    nodes.includes chain = true ∧ Search.pass nodes chain ≠ .error .fault ∧
      Search.pass [item] chain = .ok ⟨[false, true, true], 1⟩ ∧
      nodes.includes chain = Nodes.includes [.ofTag "a", .ofTag "ul", item, item] chain := by
  intro item chain nodes
  obtain ⟨hincludes, hfault, -, hset⟩ := @search_decides chain (by decide) nodes
  refine ⟨hincludes.2 (by decide), hfault, rfl, hset _ fun n => ?_⟩
  simp only [nodes, List.mem_cons, List.not_mem_nil, or_false]
  grind

end Nodes

end StyleSieve.Usage
