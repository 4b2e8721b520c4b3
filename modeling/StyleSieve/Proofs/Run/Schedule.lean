import StyleSieve.Proofs.Usage.Search
import StyleSieve.Purge.Sheet
import StyleSieve.Run.Gather

/-!
# Gathering in parallel

Files are gathered by tasks that run side by side. A task reads its file and finds what it uses on
its own; then it adds that to the accumulator of its kind, or the fault to the list of failures, in
one step that no other task can divide. Every schedule of these steps ends as `gather` does for some
order of the files (`Completes.exists_order`), and the order does not matter: neither to which files
fail nor to any answer of the index, and so to no purge (`schedule_independent`).
-/

namespace StyleSieve.Run

open Files Usage Purge

/-! ## Schedules -/

/-- Tasks on their way, and what has been gathered: an accumulator for every kind of file. -/
structure Pool where
  waiting : List SourceFile
  /-- Files that have been read, with what they use, which has not been added yet. -/
  working : List (SourceFile × Except FileFault Corpus)
  nodes : Nodes
  words : WordSet
  references : References
  failures : List Failure

namespace Pool

def start (files : List SourceFile) : Pool := ⟨files, [], [], ∅, .empty, []⟩

/-- Adds to the accumulator of a kind and leaves the others alone. -/
def merge (p : Pool) (kind : FileKind) (c : Corpus) : Pool :=
  match kind with
  | .html => { p with nodes := p.nodes ++ c.nodes }
  | .words => { p with words := p.words.union c.words }
  | .css => { p with references := p.references ++ c.references }

def fail (p : Pool) (failure : Failure) : Pool := { p with failures := p.failures ++ [failure] }

theorem working_merge (p : Pool) (kind : FileKind) (c : Corpus) :
    (p.merge kind c).working = p.working := by cases kind <;> rfl

theorem waiting_merge (p : Pool) (kind : FileKind) (c : Corpus) :
    (p.merge kind c).waiting = p.waiting := by cases kind <;> rfl

/-- One step of some task. -/
inductive Step (t : FileTree) : Pool → Pool → Prop
  | read {p : Pool} {before after : List SourceFile} {f : SourceFile}
      (waits : p.waiting = before ++ f :: after) :
      Step t p { p with
        waiting := before ++ after
        working := (f, contribution t f) :: p.working }
  | merge {p : Pool} {before after : List (SourceFile × Except FileFault Corpus)} {f : SourceFile}
      {c : Corpus} (works : p.working = before ++ (f, .ok c) :: after) :
      Step t p (merge { p with working := before ++ after } f.kind c)
  | fail {p : Pool} {before after : List (SourceFile × Except FileFault Corpus)} {f : SourceFile}
      {fault : FileFault} (works : p.working = before ++ (f, .error fault) :: after) :
      Step t p (fail { p with working := before ++ after } ⟨f.path, fault⟩)

/-- Steps one after another. -/
inductive Steps (t : FileTree) : Pool → Pool → Prop
  | refl (p : Pool) : Steps t p p
  | tail {p q r : Pool} (steps : Steps t p q) (step : Step t q r) : Steps t p r

/-- What has been gathered. -/
def gathered (p : Pool) : Gathered := ⟨⟨p.nodes, p.words, p.references⟩, p.failures⟩

end Pool

/-- Some schedule gathers the files and ends so: no task is left. -/
structure Completes (t : FileTree) (files : List SourceFile) (p : Pool) : Prop where
  steps : Pool.Steps t (.start files) p
  waiting : p.waiting = []
  working : p.working = []

/-- The outcome of a schedule: the corpus, if no file has failed. -/
def Pool.result (p : Pool) : Except (List Failure) Corpus :=
  if p.failures.isEmpty then .ok p.gathered.corpus else .error p.failures

/-! ## A schedule is an order -/

theorem References.append_empty (r : References) : r ++ References.empty = r := by
  show References.append r .empty = r
  simp [References.append, References.empty]

theorem WordSet.union_empty (s : WordSet) : s.union ∅ = s := rfl

/-- A file adds to the accumulator of its kind only. -/
theorem gathered_merge {t : FileTree} {f : SourceFile} {c : Corpus}
    (h : contribution t f = .ok c) (p : Pool) :
    (p.merge f.kind c).gathered = p.gathered.add t f := by
  have hadd : p.gathered.add t f = { p.gathered with corpus := p.gathered.corpus ++ c } := by
    simp [Gathered.add, h]
  have happend : p.gathered.corpus ++ c =
      ⟨p.nodes ++ c.nodes, p.words.union c.words, p.references ++ c.references⟩ := rfl
  rw [hadd, happend]
  unfold contribution at h
  split at h
  · simp at h
  · next text _ =>
    cases hkind : f.kind with
    | html =>
      rw [hkind, usageOf] at h
      split at h
      · simp at h
      · obtain rfl := Except.ok.inj h
        simp [Pool.merge, Pool.gathered, Corpus.empty, References.append_empty,
          WordSet.union_empty]
    | words =>
      rw [hkind, usageOf] at h
      obtain rfl := Except.ok.inj h
      simp [Pool.merge, Pool.gathered, Corpus.empty, References.append_empty]
    | css =>
      rw [hkind, usageOf] at h
      split at h
      · simp at h
      · obtain rfl := Except.ok.inj h
        simp [Pool.merge, Pool.gathered, Corpus.empty, WordSet.union_empty]

theorem gathered_fail {t : FileTree} {f : SourceFile} {fault : FileFault}
    (h : contribution t f = .error fault) (p : Pool) :
    (p.fail ⟨f.path, fault⟩).gathered = p.gathered.add t f := by
  simp [Gathered.add, h, Pool.fail, Pool.gathered]

theorem gather_concat (t : FileTree) (order : List SourceFile) (f : SourceFile) :
    gather t (order ++ [f]) = (gather t order).add t f := by
  simp [gather]

/-- What has been added was added in some order, and no file is lost or read twice. -/
structure Ordered (t : FileTree) (files order : List SourceFile) (p : Pool) : Prop where
  gathered : p.gathered = gather t order
  results : ∀ w ∈ p.working, contribution t w.1 = w.2
  perm : (order ++ (p.working.map Prod.fst ++ p.waiting)).Perm files

theorem ordered_start (t : FileTree) (files : List SourceFile) :
    Ordered t files [] (.start files) where
  gathered := rfl
  results := by simp [Pool.start]
  perm := .refl _

theorem Ordered.results_finish {t : FileTree} {files order : List SourceFile} {p : Pool}
    (h : Ordered t files order p) {before after : List (SourceFile × Except FileFault Corpus)}
    {w : SourceFile × Except FileFault Corpus} (works : p.working = before ++ w :: after) :
    contribution t w.1 = w.2 ∧ ∀ v ∈ before ++ after, contribution t v.1 = v.2 := by
  refine ⟨h.results w (by simp [works]), fun v hv => h.results v ?_⟩
  rw [works]
  rcases List.mem_append.1 hv with hv | hv
  · exact List.mem_append_left _ hv
  · exact List.mem_append_right _ (List.mem_cons_of_mem w hv)

/-- A finished task puts its file last in the order. -/
theorem Ordered.perm_finish {t : FileTree} {files order : List SourceFile} {p : Pool}
    (h : Ordered t files order p) {before after : List (SourceFile × Except FileFault Corpus)}
    {w : SourceFile × Except FileFault Corpus} (works : p.working = before ++ w :: after) :
    (order ++ [w.1] ++ ((before ++ after).map Prod.fst ++ p.waiting)).Perm files := by
  have hperm := h.perm
  rw [works] at hperm
  have hmiddle := @List.perm_middle _ w.1 (before.map Prod.fst) (after.map Prod.fst ++ p.waiting)
  refine (List.Perm.trans ?_ (hmiddle.symm.append_left order)).trans ?_
  · simp
  · simpa using hperm

/-- A step keeps the files ordered, perhaps with one file more. -/
theorem Ordered.step {t : FileTree} {files order : List SourceFile} {p q : Pool}
    (h : Ordered t files order p) (hstep : Pool.Step t p q) : ∃ order', Ordered t files order' q := by
  cases hstep with
  | @read before after f waits =>
    refine ⟨order, h.gathered, ?_, ?_⟩
    · intro w hw
      rcases List.mem_cons.1 hw with rfl | hw
      · rfl
      · exact h.results w hw
    · have hperm := h.perm
      rw [waits] at hperm
      have hmiddle := @List.perm_middle _ f (p.working.map Prod.fst ++ before) after
      refine (List.Perm.append_left order ?_).trans hperm
      simpa using hmiddle.symm
  | @merge before after f c works =>
    obtain ⟨hresult, hothers⟩ := h.results_finish works
    refine ⟨order ++ [f], ?_, ?_, ?_⟩
    · rw [gathered_merge hresult, gather_concat, ← h.gathered]
      rfl
    · rw [Pool.working_merge]
      exact hothers
    · rw [Pool.working_merge, Pool.waiting_merge]
      exact h.perm_finish works
  | @fail before after f fault works =>
    obtain ⟨hresult, hothers⟩ := h.results_finish works
    refine ⟨order ++ [f], ?_, hothers, h.perm_finish works⟩
    rw [gathered_fail hresult, gather_concat, ← h.gathered]
    rfl

/-- A schedule that has ended has gathered the files in some order. -/
theorem Completes.exists_order {t : FileTree} {files : List SourceFile} {p : Pool}
    (h : Completes t files p) : ∃ order, order.Perm files ∧ p.gathered = gather t order := by
  have hordered : ∀ {q}, Pool.Steps t (.start files) q → ∃ order, Ordered t files order q := by
    intro q hsteps
    induction hsteps with
    | refl => exact ⟨[], ordered_start t files⟩
    | tail _ hstep ih =>
      obtain ⟨order, horder⟩ := ih
      exact horder.step hstep
  obtain ⟨order, horder⟩ := hordered h.steps
  refine ⟨order, ?_, horder.gathered⟩
  simpa [h.working, h.waiting] using horder.perm

/-- A task that runs while no other does. -/
theorem Pool.Steps.run (t : FileTree) {p : Pool} {before after : List SourceFile} {f : SourceFile}
    (waits : p.waiting = before ++ f :: after) (idle : p.working = []) :
    ∃ q, Steps t p q ∧ q.waiting = before ++ after ∧ q.working = [] ∧
      q.gathered = p.gathered.add t f := by
  have hread := Steps.tail (.refl p) (Step.read (t := t) waits)
  have hworks := congrArg ((f, contribution t f) :: ·) idle
  cases hresult : contribution t f with
  | ok c =>
    rw [hresult] at hread hworks
    refine ⟨_, hread.tail (@Step.merge t _ [] _ _ _ hworks), ?_, ?_, ?_⟩
    · rw [waiting_merge]
    · rw [working_merge]
      rfl
    · rw [gathered_merge hresult]
      rfl
  | error fault =>
    rw [hresult] at hread hworks
    refine ⟨_, hread.tail (@Step.fail t _ [] _ _ _ hworks), rfl, rfl, ?_⟩
    rw [gathered_fail hresult]
    rfl

theorem Pool.Steps.append {t : FileTree} {p q r : Pool} (hpq : Steps t p q) (hqr : Steps t q r) :
    Steps t p r := by
  induction hqr with
  | refl => exact hpq
  | tail _ hstep ih => exact ih.tail hstep

/-- Every order of the files is that of some schedule. -/
theorem exists_completes (t : FileTree) {files order : List SourceFile} (h : order.Perm files) :
    ∃ p, Completes t files p ∧ p.gathered = gather t order := by
  have hruns : ∀ (order : List SourceFile) (p : Pool), order.Perm p.waiting → p.working = [] →
      ∃ q, Pool.Steps t p q ∧ q.waiting = [] ∧ q.working = [] ∧
        q.gathered = order.foldl (.add t) p.gathered := by
    intro order
    induction order with
    | nil => exact fun p hwaiting hidle => ⟨p, .refl p, List.nil_perm.1 hwaiting, hidle, rfl⟩
    | cons f order ih =>
      intro p hwaiting hidle
      obtain ⟨before, after, hsplit⟩ := List.append_of_mem (hwaiting.subset List.mem_cons_self)
      obtain ⟨q, hpq, hrest, hidle', hgathered⟩ := Pool.Steps.run t hsplit hidle
      have horder : order.Perm q.waiting := by
        rw [hrest]
        rw [hsplit] at hwaiting
        exact (hwaiting.trans List.perm_middle).cons_inv
      obtain ⟨r, hqr, hdone⟩ := ih q horder hidle'
      rw [hgathered] at hdone
      exact ⟨r, hpq.append hqr, hdone⟩
  obtain ⟨q, hsteps, hwaiting, hidle, hgathered⟩ := hruns order (.start files) h rfl
  exact ⟨q, ⟨hsteps, hwaiting, hidle⟩, hgathered⟩

/-! ## The order does not matter -/

/-- What a file adds to a corpus; nothing if it fails. -/
def used (t : FileTree) (f : SourceFile) : Corpus :=
  match contribution t f with
  | .ok c => c
  | .error _ => .empty

/-- The failure of a file that cannot be used. -/
def failure? (t : FileTree) (f : SourceFile) : Option Failure :=
  match contribution t f with
  | .ok _ => none
  | .error fault => some ⟨f.path, fault⟩

/-- The two corpora hold the same, maybe in another order. -/
structure Corpus.Alike (c d : Corpus) : Prop where
  nodes : c.nodes.Perm d.nodes
  words : ∀ w, w ∈ c.words ↔ w ∈ d.words
  fonts : c.references.fonts.Perm d.references.fonts
  animations : c.references.animations.Perm d.references.animations

section

variable {t : FileTree} {files files' : List SourceFile}

theorem add_eq (t : FileTree) (g : Gathered) (f : SourceFile) :
    g.add t f = ⟨g.corpus ++ used t f, g.failures ++ (failure? t f).toList⟩ := by
  unfold Gathered.add used failure?
  cases contribution t f with
  | ok c => simp
  | error fault =>
    have hempty : g.corpus ++ Corpus.empty = g.corpus := by
      show Corpus.append g.corpus .empty = g.corpus
      simp [Corpus.append, Corpus.empty, References.append_empty, WordSet.union_empty]
    simp [hempty]

theorem foldl_add (t : FileTree) (g : Gathered) (files : List SourceFile) :
    files.foldl (.add t) g =
      ⟨files.foldl (fun c f => c ++ used t f) g.corpus, g.failures ++ files.filterMap (failure? t)⟩ := by
  induction files generalizing g with
  | nil => simp
  | cons f files ih =>
    rw [List.foldl_cons, ih, add_eq]
    cases hf : failure? t f <;> simp [hf]

theorem failures_gather (t : FileTree) (files : List SourceFile) :
    (gather t files).failures = files.filterMap (failure? t) := by
  rw [gather, foldl_add]
  rfl

/-- The members of a corpus to which files are added one after another. -/
theorem foldl_used (t : FileTree) (c : Corpus) (files : List SourceFile) :
    let d := files.foldl (fun c f => c ++ used t f) c
    d.nodes = c.nodes ++ files.flatMap (fun f => (used t f).nodes) ∧
      (∀ w, w ∈ d.words ↔ w ∈ c.words ∨ ∃ f ∈ files, w ∈ (used t f).words) ∧
      d.references.fonts = c.references.fonts ++ files.flatMap (fun f => (used t f).references.fonts) ∧
      d.references.animations =
        c.references.animations ++ files.flatMap (fun f => (used t f).references.animations) := by
  induction files generalizing c with
  | nil => simp
  | cons f files ih =>
    obtain ⟨hnodes, hwords, hfonts, hanimations⟩ := ih (c ++ used t f)
    have happend : c ++ used t f = ⟨c.nodes ++ (used t f).nodes, c.words.union (used t f).words,
      ⟨c.references.fonts ++ (used t f).references.fonts,
        c.references.animations ++ (used t f).references.animations⟩⟩ := rfl
    rw [happend] at hnodes hwords hfonts hanimations
    refine ⟨?_, fun w => ?_, ?_, ?_⟩
    · simpa [happend] using hnodes
    · simpa [happend, or_assoc] using hwords w
    · simpa [happend] using hfonts
    · simpa [happend] using hanimations

/-- Gathering in another order gives the same corpus but for the order, and the same failures. -/
theorem gather_perm (h : files.Perm files') :
    Corpus.Alike (gather t files).corpus (gather t files').corpus ∧
      (gather t files).failures.Perm (gather t files').failures := by
  refine ⟨?_, ?_⟩
  · rw [gather, gather, foldl_add, foldl_add]
    obtain ⟨hnodes, hwords, hfonts, hanimations⟩ := foldl_used t Gathered.empty.corpus files
    obtain ⟨hnodes', hwords', hfonts', hanimations'⟩ := foldl_used t Gathered.empty.corpus files'
    refine ⟨?_, fun w => ?_, ?_, ?_⟩
    · rw [hnodes, hnodes']
      exact (h.flatMap_right _).append_left _
    · rw [hwords, hwords']
      simp [h.mem_iff]
    · rw [hfonts, hfonts']
      exact (h.flatMap_right _).append_left _
    · rw [hanimations, hanimations']
      exact (h.flatMap_right _).append_left _
  · rw [failures_gather, failures_gather]
    exact h.filterMap _

end

/-! ## Answers -/

theorem includes_of_perm {nodes nodes' : Nodes} (h : nodes.Perm nodes') (chain : Selector.Chain) :
    nodes.includes chain = nodes'.includes chain := by
  rw [Bool.eq_iff_iff, Nodes.includes_iff, Nodes.includes_iff]
  simp [h.mem_iff]

/-- The index of a corpus does not tell in which order the corpus was gathered. -/
theorem Corpus.Alike.includes_eq {c d : Corpus} (h : Corpus.Alike c d) (o : Overrides)
    (chain : Selector.Chain) : (c.index o).includes chain = (d.index o).includes chain := by
  have hwords : c.words = d.words := Text.NameSet.ext h.words
  have hnodes := includes_of_perm h.nodes chain
  simp [Corpus.index, Corpus.members, Index.includes, hwords, hnodes]

theorem wanted_of_perm {uses uses' : NameUses} (h : uses.Perm uses') {index index' : Index}
    (hindex : ∀ chain, index.includes chain = index'.includes chain) (name : String) :
    uses.wanted index name = uses'.wanted index' name := by
  rw [NameUses.wanted, NameUses.wanted, NameUses.chains, NameUses.chains]
  rw [List.any_map, List.any_map, Bool.eq_iff_iff, List.any_eq_true, List.any_eq_true]
  simp [h.mem_iff, hindex]

/-- The two judges answer every question alike. -/
structure Agree (j j' : Judge) : Prop where
  includes : ∀ chain, j.index.includes chain = j'.index.includes chain
  fonts : ∀ name, j.references.fontWanted j.index name = j'.references.fontWanted j'.index name
  animations : ∀ name,
    j.references.animationWanted j.index name = j'.references.animationWanted j'.index name

/-- A purge asks nothing of its judge but these questions. -/
theorem Agree.step_eq {j j' : Judge} (h : Agree j j') (source : String) (s : State)
    (e : Css.Event) : s.step j source e = s.step j' source e := by
  have hselector : s.selector j e = s.selector j' e := by
    unfold State.selector
    simp only [h.includes]
  have hrulesetStart : s.rulesetStart j e = s.rulesetStart j' e := by
    unfold State.rulesetStart
    rw [hselector]
  have hblockStart : s.blockStart j e = s.blockStart j' e := by
    unfold State.blockStart
    rw [h.animations]
  have hblockEnd : s.blockEnd j = s.blockEnd j' := by
    unfold State.blockEnd State.fontFaceEnd
    simp only [h.fonts]
  unfold State.step State.kept
  rw [hselector, hrulesetStart, hblockStart, hblockEnd]

theorem Agree.planFrom_eq {j j' : Judge} (h : Agree j j') (source : String) (s : State)
    (es : List Css.Event) : planFrom j source s es = planFrom j' source s es := by
  induction es generalizing s with
  | nil => rfl
  | cons e es ih =>
    rw [planFrom, planFrom, h.step_eq]
    cases s.step j' source e with
    | error fault => rfl
    | ok next => simp only [ih]

theorem Agree.purge_eq {j j' : Judge} (h : Agree j j') (source : String) (sink : Sink) :
    purge j source sink = purge j' source sink := by
  have hplan : planOf j source = planOf j' source := by
    simp only [planOf, h.planFrom_eq]
  simp only [purge, hplan]

/-- The judge that a corpus and the overrides make. -/
def judgeOf (c : Corpus) (o : Overrides) : Judge := ⟨c.index o, c.references⟩

theorem Corpus.Alike.agree {c d : Corpus} (h : Corpus.Alike c d) (o : Overrides) :
    Agree (judgeOf c o) (judgeOf d o) where
  includes := h.includes_eq o
  fonts := wanted_of_perm h.fonts (h.includes_eq o)
  animations := wanted_of_perm h.animations (h.includes_eq o)

/-! ## Schedules do not matter -/

/-- The failures of a schedule are those of the files that fail, each once. -/
theorem Completes.failures_perm {t : FileTree} {files : List SourceFile} {p : Pool}
    (h : Completes t files p) : p.failures.Perm (files.filterMap (failure? t)) := by
  obtain ⟨order, hperm, hgathered⟩ := h.exists_order
  have hfailures : p.failures = (gather t order).failures := congrArg Gathered.failures hgathered
  rw [hfailures, failures_gather]
  exact hperm.filterMap _

theorem Completes.alike {t : FileTree} {files : List SourceFile} {p q : Pool}
    (hp : Completes t files p) (hq : Completes t files q) :
    Corpus.Alike p.gathered.corpus q.gathered.corpus := by
  obtain ⟨order, hperm, hgathered⟩ := hp.exists_order
  obtain ⟨order', hperm', hgathered'⟩ := hq.exists_order
  rw [hgathered, hgathered']
  exact (gather_perm (hperm.trans hperm'.symm)).1

theorem Completes.result_error_iff {t : FileTree} {files : List SourceFile} {p : Pool}
    (h : Completes t files p) :
    (∃ failures, p.result = .error failures) ↔
      ∃ f ∈ files, ∃ fault, contribution t f = .error fault := by
  have hnone : p.failures = [] ↔ ∀ f ∈ files, failure? t f = none := by
    rw [← List.filterMap_eq_nil_iff]
    exact ⟨fun hnil => List.nil_perm.1 (hnil ▸ h.failures_perm),
      fun hnil => List.perm_nil.1 (hnil ▸ h.failures_perm)⟩
  have hfails : ∀ f, failure? t f = none ↔ ¬ ∃ fault, contribution t f = .error fault := by
    intro f
    unfold failure?
    cases contribution t f <;> simp
  have hresult : (∃ failures, p.result = .error failures) ↔ p.failures ≠ [] := by
    unfold Pool.result
    cases p.failures <;> simp
  rw [hresult, Ne, hnone]
  simp [hfails]

/-- Whether gathering fails, and for which files, depends on the files alone; and if it succeeds, no
answer of the index and no purge tells one schedule from another. -/
theorem schedule_independent {t : FileTree} {files : List SourceFile} {p q : Pool}
    (hp : Completes t files p) (hq : Completes t files q) :
    ((∃ failures, p.result = .error failures) ↔
        ∃ f ∈ files, ∃ fault, contribution t f = .error fault) ∧
      (∀ failures, p.result = .error failures → failures.Perm (files.filterMap (failure? t))) ∧
      ∀ c, p.result = .ok c → ∃ d, q.result = .ok d ∧ ∀ o,
        (∀ chain, (c.index o).includes chain = (d.index o).includes chain) ∧
        (∀ name, c.references.fontWanted (c.index o) name =
          d.references.fontWanted (d.index o) name) ∧
        (∀ name, c.references.animationWanted (c.index o) name =
          d.references.animationWanted (d.index o) name) ∧
        ∀ source sink, purge (judgeOf c o) source sink = purge (judgeOf d o) source sink := by
  refine ⟨hp.result_error_iff, ?_, ?_⟩
  · intro failures hfailures
    unfold Pool.result at hfailures
    split at hfailures
    · simp at hfailures
    · obtain rfl := Except.error.inj hfailures
      exact hp.failures_perm
  · intro c hc
    have hfine : ¬ ∃ failures, p.result = .error failures := by simp [hc]
    rw [hp.result_error_iff, ← hq.result_error_iff] at hfine
    have hcorpus : c = p.gathered.corpus := by
      unfold Pool.result at hc
      split at hc
      · exact (Except.ok.inj hc).symm
      · simp at hc
    have hd : q.result = .ok q.gathered.corpus := by
      unfold Pool.result at hfine ⊢
      split
      · rfl
      · next hfailures => exact absurd ⟨q.failures, by rw [if_neg hfailures]⟩ hfine
    have halike : Corpus.Alike c q.gathered.corpus := hcorpus ▸ hp.alike hq
    refine ⟨_, hd, fun o => ?_⟩
    have hagree := halike.agree o
    exact ⟨hagree.includes, hagree.fonts, hagree.animations, hagree.purge_eq⟩

/-- Two files, gathered in both orders. -/
theorem schedule_independent_swapped :
    let t : FileTree := ⟨[(["a"], .text "x"), (["b"], .text "<p>")]⟩
    let a : SourceFile := ⟨"a", .words⟩
    let b : SourceFile := ⟨"b", .html⟩
    ∃ p q : Pool, Completes t [a, b] p ∧ Completes t [a, b] q ∧ p.result.isOk ∧
      ∀ c, p.result = .ok c → ∃ d, q.result = .ok d ∧ ∀ o,
        (∀ chain, (c.index o).includes chain = (d.index o).includes chain) ∧
        (∀ name, c.references.fontWanted (c.index o) name =
          d.references.fontWanted (d.index o) name) ∧
        (∀ name, c.references.animationWanted (c.index o) name =
          d.references.animationWanted (d.index o) name) ∧
        ∀ source sink, purge (judgeOf c o) source sink = purge (judgeOf d o) source sink := by
  intro t a b
  obtain ⟨p, hp, hgathered⟩ := exists_completes t (List.Perm.refl [a, b])
  obtain ⟨q, hq, -⟩ := exists_completes t (List.Perm.swap a b [])
  have hfailures : p.failures = [] := by
    have hnone : (gather t [a, b]).failures = [] := by decide +kernel
    rw [← hgathered] at hnone
    exact hnone
  refine ⟨p, q, hp, hq, ?_, (schedule_independent hp hq).2.2⟩
  simp [Pool.result, hfailures, Except.isOk, Except.toBool]

end StyleSieve.Run
