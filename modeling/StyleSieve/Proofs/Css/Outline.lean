import StyleSieve.Proofs.Css.Reading

/-!
# The outline of a stylesheet

The events of a stylesheet, nested: what stands between the two ends of a block becomes the body of
a node. `outline_events` says that nothing is lost or moved when the stylesheet has no fault, and
`outline_fits` that declarations stand only where the grammar puts them. Nothing is claimed of the
outline of a malformed stylesheet.
-/

namespace StyleSieve.Css

/-- A single event, or the events from the beginning of a block to its end. -/
inductive Node where
  | comment (e : Event)
  | declaration (e : Event)
  | statement (e : Event)
  /-- A rule. The last of its selectors begins its block. -/
  | ruleset (earlier : List Event) (last : Event) (body : List Node) (stop : Event)
  | block (head : Event) (body : List Node) (stop : Event)
deriving Repr

namespace Node

mutual

/-- The events of a node in order. -/
def events : Node → List Event
  | comment e => [e]
  | declaration e => [e]
  | statement e => [e]
  | ruleset earlier last body stop => earlier ++ last :: (eventsIn body ++ [stop])
  | block head body stop => head :: (eventsIn body ++ [stop])

/-- The events of several nodes in order. -/
def eventsIn : List Node → List Event
  | [] => []
  | n :: ns => n.events ++ eventsIn ns

end

@[simp] theorem events_comment (e : Event) : (comment e).events = [e] := by simp [events]

@[simp] theorem events_declaration (e : Event) : (declaration e).events = [e] := by simp [events]

@[simp] theorem events_statement (e : Event) : (statement e).events = [e] := by simp [events]

@[simp] theorem events_ruleset (earlier : List Event) (last : Event) (body : List Node)
    (stop : Event) :
    (ruleset earlier last body stop).events = earlier ++ last :: (eventsIn body ++ [stop]) := by
  simp [events]

@[simp] theorem events_block (head : Event) (body : List Node) (stop : Event) :
    (block head body stop).events = head :: (eventsIn body ++ [stop]) := by simp [events]

@[simp] theorem eventsIn_nil : eventsIn [] = [] := by simp [eventsIn]

@[simp] theorem eventsIn_cons (n : Node) (ns : List Node) :
    eventsIn (n :: ns) = n.events ++ eventsIn ns := by simp [eventsIn]

theorem eventsIn_append (ns ns' : List Node) :
    eventsIn (ns ++ ns') = eventsIn ns ++ eventsIn ns' := by
  induction ns with
  | nil => simp
  | cons n ns ih => simp [ih]

/-- What stands inside the block of a node. -/
def body : Node → List Node
  | ruleset _ _ body _ => body
  | block _ body _ => body
  | _ => []

mutual

/-- A node and the nodes inside it. -/
def nodes : Node → List Node
  | comment e => [comment e]
  | declaration e => [declaration e]
  | statement e => [statement e]
  | ruleset earlier last body stop => ruleset earlier last body stop :: nodesIn body
  | block head body stop => block head body stop :: nodesIn body

/-- Several nodes and the nodes inside them. -/
def nodesIn : List Node → List Node
  | [] => []
  | n :: ns => n.nodes ++ nodesIn ns

end

@[simp] theorem nodesIn_nil : nodesIn [] = [] := by simp [nodesIn]

@[simp] theorem nodesIn_cons (n : Node) (ns : List Node) :
    nodesIn (n :: ns) = n.nodes ++ nodesIn ns := by simp [nodesIn]

theorem nodes_eq (n : Node) : n.nodes = n :: nodesIn n.body := by
  cases n <;> simp [nodes, body]

/-- An at-rule, with a block or without. -/
def isAtRule : Node → Bool
  | statement _ => true
  | block .. => true
  | _ => false

def definesFont : Node → Bool
  | block head _ _ => isFontFace head.atName
  | _ => false

theorem nodesIn_append (ns ns' : List Node) :
    nodesIn (ns ++ ns') = nodesIn ns ++ nodesIn ns' := by
  induction ns with
  | nil => simp
  | cons n ns ih => simp [ih]

section

variable {m n : Node} {ns : List Node}

theorem mem_nodesIn_of_head (h : m ∈ nodesIn [n]) : m ∈ nodesIn (n :: ns) := by
  rw [nodesIn_cons, nodesIn_nil, List.append_nil] at h
  rw [nodesIn_cons]
  exact List.mem_append_left _ h

theorem mem_nodesIn_of_tail (h : m ∈ nodesIn ns) : m ∈ nodesIn (n :: ns) := by
  rw [nodesIn_cons]
  exact List.mem_append_right _ h

theorem mem_nodesIn_of_body (h : m ∈ nodesIn n.body) : m ∈ nodesIn (n :: ns) := by
  rw [nodesIn_cons, nodes_eq]
  exact List.mem_append_left _ (List.mem_cons_of_mem n h)

theorem mem_nodesIn_self (h : n ∈ ns) : n ∈ nodesIn ns := by
  induction ns with
  | nil => exact h
  | cons m ns ih =>
    rcases List.mem_cons.1 h with rfl | h
    · rw [nodesIn_cons, nodes_eq]
      exact List.mem_append_left _ List.mem_cons_self
    · exact mem_nodesIn_of_tail (ih h)

end

mutual

/-- The events of a node inside another one are among its events, in order. -/
theorem events_sublist_of_mem_nodes {m : Node} : ∀ {n : Node}, m ∈ n.nodes →
    m.events.Sublist n.events
  | comment d => fun h => by
    obtain rfl : m = comment d := by simpa [nodes] using h
    exact List.Sublist.refl _
  | declaration d => fun h => by
    obtain rfl : m = declaration d := by simpa [nodes] using h
    exact List.Sublist.refl _
  | statement d => fun h => by
    obtain rfl : m = statement d := by simpa [nodes] using h
    exact List.Sublist.refl _
  | ruleset earlier last body stop => fun h => by
    rw [nodes_eq] at h
    rcases List.mem_cons.1 h with rfl | h
    · exact List.Sublist.refl _
    · rw [events_ruleset]
      exact (((events_sublist_of_mem_nodesIn h).trans (List.sublist_append_left _ _)).cons _).trans
        (List.sublist_append_right _ _)
  | block head body stop => fun h => by
    rw [nodes_eq] at h
    rcases List.mem_cons.1 h with rfl | h
    · exact List.Sublist.refl _
    · rw [events_block]
      exact ((events_sublist_of_mem_nodesIn h).trans (List.sublist_append_left _ _)).cons _

theorem events_sublist_of_mem_nodesIn {m : Node} : ∀ {ns : List Node}, m ∈ nodesIn ns →
    m.events.Sublist (eventsIn ns)
  | [] => fun h => by simp at h
  | n :: ns => fun h => by
    rw [nodesIn_cons, List.mem_append] at h
    rw [eventsIn_cons]
    rcases h with h | h
    · exact (events_sublist_of_mem_nodes h).trans (List.sublist_append_left _ _)
    · exact (events_sublist_of_mem_nodesIn h).trans (List.sublist_append_right _ _)

end

theorem body_subset_events (n : Node) : eventsIn n.body ⊆ n.events := by
  intro e he
  cases n <;> simp_all [body]

/-- What stands inside a block among some nodes is among their events. -/
theorem mem_eventsIn_of_mem_body {ns body : List Node} {head stop e : Event}
    (h : block head body stop ∈ nodesIn ns) (he : e ∈ eventsIn body) : e ∈ eventsIn ns :=
  (events_sublist_of_mem_nodesIn h).subset (by simp [he])

theorem head_mem_eventsIn {ns body : List Node} {head stop : Event}
    (h : block head body stop ∈ nodesIn ns) : head ∈ eventsIn ns :=
  (events_sublist_of_mem_nodesIn h).subset (by simp)

def isRule : Node → Bool
  | ruleset .. => true
  | _ => false

/-- The node stands among the given ones or inside blocks of at-rules that let through. -/
inductive Reaches (through : Event → Bool) : List Node → Node → Prop
  | here {ns : List Node} {n : Node} (h : n ∈ ns) : Reaches through ns n
  | inside {ns body : List Node} {head stop : Event} {n : Node} (h : block head body stop ∈ ns)
      (lets : through head = true) (reaches : Reaches through body n) : Reaches through ns n

theorem Reaches.mono {through : Event → Bool} {ns ns' : List Node} {n : Node}
    (hsub : ∀ m ∈ ns, m ∈ ns') (h : Reaches through ns n) : Reaches through ns' n := by
  cases h with
  | here h => exact .here (hsub _ h)
  | inside h lets reaches => exact .inside (hsub _ h) lets reaches

/-- The node has the kinds of events that its form asks for, and declarations stand only among
declarations. The body of an at-rule belongs where the name of the at-rule says. -/
inductive Fits : Context → Node → Prop
  | comment {ctx : Context} {e : Event} (kind : e.kind = .comment) : Fits ctx (comment e)
  | declaration {e : Event} (kind : e.kind = .declaration ∨ e.kind = .customDeclaration) :
      Fits .declarations (declaration e)
  | statement {ctx : Context} {e : Event} (kind : e.kind = .statement) : Fits ctx (statement e)
  | ruleset {earlier : List Event} {last : Event} {body : List Node} {stop : Event}
      (earlier_kind : ∀ e ∈ earlier, e.kind = .selector) (last_kind : last.kind = .rulesetStart)
      (stop_kind : stop.kind = .rulesetEnd) (fits : ∀ n ∈ body, Fits .declarations n) :
      Fits .rules (ruleset earlier last body stop)
  | block {ctx : Context} {head : Event} {body : List Node} {stop : Event}
      (head_kind : head.kind = .blockStart) (stop_kind : stop.kind = .blockEnd)
      (fits : ∀ n ∈ body, Fits (.ofAtRule head.data) n) :
      Fits ctx (block head body stop)

/-- What is reached among nodes that fit fits where it stands. -/
theorem Reaches.fits {through : Event → Bool} {ns : List Node} {n : Node}
    (h : Reaches through ns n) {ctx : Context} (hfits : ∀ m ∈ ns, Fits ctx m) :
    ∃ ctx', Fits ctx' n := by
  induction h generalizing ctx with
  | here h => exact ⟨ctx, hfits _ h⟩
  | inside h _ _ ih =>
    cases hfits _ h with
    | block _ _ fits => exact ih fits

/-! ## Nesting events -/

/-- What has begun a block. -/
inductive Opened where
  | ruleset (earlier : List Event) (last : Event)
  | block (head : Event)

/-- A block whose end has not been read, with the nodes before it, last first. -/
structure Frame where
  opened : Opened
  before : List Node

/-- The blocks that are open, the selectors of a list that has begun and the nodes read in the
innermost block, the last first in each. -/
structure Nesting where
  frames : List Frame
  earlier : List Event
  done : List Node

namespace Nesting

def start : Nesting := ⟨[], [], []⟩

/-- One node more in the innermost block, unless a list of selectors has begun. -/
def add (s : Nesting) (n : Node) : Option Nesting :=
  if s.earlier.isEmpty then some { s with done := n :: s.done } else none

/-- A block begins after what has been read. -/
def enter (s : Nesting) (opened : Opened) : Nesting := ⟨⟨opened, s.done⟩ :: s.frames, [], []⟩

/-- One event more. An end has to be that of the innermost block. -/
def read (s : Nesting) (e : Event) : Option Nesting :=
  match e.kind with
  | .comment => s.add (.comment e)
  | .declaration => s.add (.declaration e)
  | .customDeclaration => s.add (.declaration e)
  | .statement => s.add (.statement e)
  | .selector => some { s with earlier := e :: s.earlier }
  | .rulesetStart => some (s.enter (.ruleset s.earlier.reverse e))
  | .blockStart => if s.earlier.isEmpty then some (s.enter (.block e)) else none
  | .rulesetEnd =>
    match s.frames with
    | ⟨.ruleset earlier last, before⟩ :: frames =>
      if s.earlier.isEmpty then some ⟨frames, [], .ruleset earlier last s.done.reverse e :: before⟩
      else none
    | _ => none
  | .blockEnd =>
    match s.frames with
    | ⟨.block head, before⟩ :: frames =>
      if s.earlier.isEmpty then some ⟨frames, [], .block head s.done.reverse e :: before⟩ else none
    | _ => none

/-- The nodes read when no block is open. -/
def finish (s : Nesting) : Option (List Node) :=
  if s.frames.isEmpty && s.earlier.isEmpty then some s.done.reverse else none

end Nesting

/-- The nodes of a sequence of events, if it is nested. -/
def nest (es : List Event) : Option (List Node) :=
  (es.foldlM Nesting.read Nesting.start).bind Nesting.finish

theorem read_selectors {earlier : List Event} (h : ∀ e ∈ earlier, e.kind = .selector)
    (frames : List Frame) (before : List Event) (done : List Node) :
    earlier.foldlM Nesting.read ⟨frames, before, done⟩
      = some ⟨frames, earlier.reverse ++ before, done⟩ := by
  induction earlier generalizing before with
  | nil => rfl
  | cons e earlier ih =>
    have he : e.kind = .selector := h e List.mem_cons_self
    have hread : Nesting.read ⟨frames, before, done⟩ e = some ⟨frames, e :: before, done⟩ := by
      simp [Nesting.read, he]
    rw [List.foldlM_cons, hread, Option.bind_eq_bind, Option.bind_some,
      ih fun x hx => h x (List.mem_cons_of_mem e hx)]
    simp

mutual

/-- A node that fits is read as one more node of the innermost block. -/
theorem read_events {ctx : Context} : ∀ {n : Node}, Fits ctx n →
    ∀ (frames : List Frame) (done : List Node),
      n.events.foldlM Nesting.read ⟨frames, [], done⟩ = some ⟨frames, [], n :: done⟩
  | comment e, .comment kind, frames, done => by
    simp [Nesting.read, Nesting.add, kind]
  | declaration e, .declaration kind, frames, done => by
    rcases kind with kind | kind <;> simp [Nesting.read, Nesting.add, kind]
  | statement e, .statement kind, frames, done => by
    simp [Nesting.read, Nesting.add, kind]
  | ruleset earlier last body stop, .ruleset hearlier hlast hstop fits, frames, done => by
    have hbody := read_eventsIn fits (⟨.ruleset earlier last, done⟩ :: frames) []
    simp [List.foldlM_append, read_selectors hearlier, Nesting.read, Nesting.enter, hlast,
      hbody, hstop]
  | block head body stop, .block hhead hstop fits, frames, done => by
    have hbody := read_eventsIn fits (⟨.block head, done⟩ :: frames) []
    simp [List.foldlM_append, Nesting.read, Nesting.enter, hhead, hbody, hstop]

theorem read_eventsIn {ctx : Context} : ∀ {ns : List Node}, (∀ n ∈ ns, Fits ctx n) →
    ∀ (frames : List Frame) (done : List Node),
      (eventsIn ns).foldlM Nesting.read ⟨frames, [], done⟩ = some ⟨frames, [], ns.reverse ++ done⟩
  | [], _, frames, done => by simp
  | n :: ns, h, frames, done => by
    have hn := read_events (h n List.mem_cons_self) frames done
    have hns := read_eventsIn (fun m hm => h m (List.mem_cons_of_mem n hm)) frames (n :: done)
    simp [List.foldlM_append, hn, hns]

end

/-- Nodes that fit are found again from their events. -/
theorem nest_eventsIn {ctx : Context} {ns : List Node} (h : ∀ n ∈ ns, Fits ctx n) :
    nest (eventsIn ns) = some ns := by
  rw [nest, Nesting.start, read_eventsIn h]
  simp [Nesting.finish]

end Node

/-! ## The events of a well formed stylesheet -/

namespace Outcome

theorem error_append_eq_none {p q : Outcome} :
    (p ++ q).error = none ↔ p.error = none ∧ q.error = none := by
  rcases p with ⟨es, e⟩
  cases e <;> simp [append_def]

theorem events_append {p q : Outcome} (h : p.error = none) :
    (p ++ q).events = p.events ++ q.events := by
  simp [append_def, h]

end Outcome

open Node

/-- The events are those of nodes that fit the context. Where a rule has begun, its selectors and
its block come first. -/
def Nested : Context → List Event → Prop
  | .selectors, es => ∃ earlier last body stop rest,
      Fits .rules (.ruleset earlier last body stop) ∧ (∀ n ∈ rest, Fits .rules n) ∧
        es = earlier ++ last :: (eventsIn body ++ stop :: eventsIn rest)
  | .rules, es => ∃ ns, (∀ n ∈ ns, Fits .rules n) ∧ es = eventsIn ns
  | .declarations, es => ∃ ns, (∀ n ∈ ns, Fits .declarations n) ∧ es = eventsIn ns

theorem nested_iff {ctx : Context} (hctx : ctx ≠ .selectors) {es : List Event} :
    Nested ctx es ↔ ∃ ns, (∀ n ∈ ns, Fits ctx n) ∧ es = eventsIn ns := by
  cases ctx with
  | rules => rfl
  | declarations => rfl
  | selectors => exact absurd rfl hctx

theorem Context.ofAtRule_ne_selectors (data : String) : Context.ofAtRule data ≠ .selectors := by
  unfold Context.ofAtRule
  split <;> simp

/-- A conditional group holds rules. -/
theorem Context.ofAtRule_of_isConditional {data : String}
    (h : isConditional (String.ofList (data.toList.dropWhile (· == '@'))) = true) :
    Context.ofAtRule data = .rules := by
  refine if_pos ?_
  rw [holdsRules, Bool.or_eq_true]
  exact .inl h

/-- The events are nested unless there is a fault. -/
structure Nests (ctx : Context) (p : Outcome) : Prop where
  nested : p.error = none → Nested ctx p.events

theorem nests_fail (ctx : Context) (fault : SyntaxFault) (offset : Nat) :
    Nests ctx (.fail fault offset) := by
  constructor
  intro h
  simp [Outcome.fail] at h

theorem nests_empty {ctx : Context} (hctx : ctx ≠ .selectors) : Nests ctx .empty :=
  ⟨fun _ => (nested_iff hctx).2 ⟨[], by simp, by simp [Outcome.empty]⟩⟩

theorem nests_guarded {ctx : Context} {pos : Nat} {ts : List Tree} {next : Outcome}
    (h : Nests ctx next) : Nests ctx (guarded pos ts next) := by
  unfold guarded
  split
  · exact nests_fail _ _ _
  · exact h

/-- One node more before nested events. -/
theorem nests_cons {ctx : Context} (hctx : ctx ≠ .selectors) {n : Node} (hn : Fits ctx n)
    {p q : Outcome} (hp : p.error = none → p.events = n.events) (hq : Nests ctx q) :
    Nests ctx (p ++ q) := by
  constructor
  intro herror
  obtain ⟨hperror, hqerror⟩ := Outcome.error_append_eq_none.1 herror
  obtain ⟨ns, hns, heq⟩ := (nested_iff hctx).1 (hq.nested hqerror)
  refine (nested_iff hctx).2 ⟨n :: ns, ?_, ?_⟩
  · intro m hm
    rcases List.mem_cons.1 hm with rfl | hm
    · exact hn
    · exact hns m hm
  · rw [Outcome.events_append hperror, hp hperror, heq, eventsIn_cons]

theorem nests_comment {ctx : Context} (hctx : ctx ≠ .selectors) {e : Event}
    (he : e.kind = .comment) {q : Outcome} (hq : Nests ctx q) : Nests ctx (.one e ++ q) :=
  nests_cons hctx (.comment he) (by simp [Outcome.one]) hq

theorem nests_statement {ctx : Context} (hctx : ctx ≠ .selectors) {e : Event}
    (he : e.kind = .statement) {q : Outcome} (hq : Nests ctx q) : Nests ctx (.one e ++ q) :=
  nests_cons hctx (.statement he) (by simp [Outcome.one]) hq

theorem nests_declaration {e : Event} (he : e.kind = .declaration ∨ e.kind = .customDeclaration)
    {q : Outcome} (hq : Nests .declarations q) : Nests .declarations (.one e ++ q) :=
  nests_cons (by simp) (.declaration he) (by simp [Outcome.one]) hq

theorem nests_block {ctx : Context} (hctx : ctx ≠ .selectors) {head stop : Event}
    (hhead : head.kind = .blockStart) (hstop : stop.kind = .blockEnd) {inner : Context}
    (hinner : inner = .ofAtRule head.data) {p q : Outcome} (hp : Nests inner p)
    (hq : Nests ctx q) : Nests ctx (.one head ++ p ++ .one stop ++ q) := by
  have hne : inner ≠ .selectors := hinner ▸ Context.ofAtRule_ne_selectors head.data
  constructor
  intro herror
  simp only [Outcome.error_append_eq_none] at herror
  obtain ⟨⟨⟨-, hperror⟩, -⟩, hqerror⟩ := herror
  obtain ⟨body, hbody, heq⟩ := (nested_iff hne).1 (hp.nested hperror)
  rw [hinner] at hbody
  have hfits : Fits ctx (.block head body stop) := .block hhead hstop hbody
  refine (nests_cons hctx hfits ?_ hq).nested ?_
  · intro _
    simp [Outcome.append_def, Outcome.one, hperror, heq]
  · simp [Outcome.append_def, Outcome.one, hperror, hqerror]

theorem nests_selector {e : Event} (he : e.kind = .selector) {q : Outcome}
    (hq : Nests .selectors q) : Nests .selectors (.one e ++ q) := by
  constructor
  intro herror
  rw [Outcome.one_append_error] at herror
  obtain ⟨earlier, last, body, stop, rest, hfits, hrest, heq⟩ := hq.nested herror
  cases hfits with
  | ruleset hearlier hlast hstop hbody =>
    refine ⟨e :: earlier, last, body, stop, rest, .ruleset ?_ hlast hstop hbody, hrest, ?_⟩
    · intro x hx
      rcases List.mem_cons.1 hx with rfl | hx
      · exact he
      · exact hearlier x hx
    · rw [Outcome.one_append_events, heq, List.cons_append]

theorem nests_rulesetStart {last stop : Event} (hlast : last.kind = .rulesetStart)
    (hstop : stop.kind = .rulesetEnd) {p q : Outcome} (hp : Nests .declarations p)
    (hq : Nests .rules q) : Nests .selectors (.one last ++ p ++ .one stop ++ q) := by
  constructor
  intro herror
  simp only [Outcome.error_append_eq_none] at herror
  obtain ⟨⟨⟨-, hperror⟩, -⟩, hqerror⟩ := herror
  obtain ⟨body, hbody, hpeq⟩ := hp.nested hperror
  obtain ⟨rest, hrest, hqeq⟩ := hq.nested hqerror
  refine ⟨[], last, body, stop, rest, .ruleset (by simp) hlast hstop hbody, hrest, ?_⟩
  simp [Outcome.append_def, Outcome.one, hperror, hpeq, hqeq]

/-- A rule that has begun is one rule before others. -/
theorem nests_rules_of_selectors {p : Outcome} (h : Nests .selectors p) : Nests .rules p := by
  constructor
  intro herror
  obtain ⟨earlier, last, body, stop, rest, hfits, hrest, heq⟩ := h.nested herror
  refine ⟨.ruleset earlier last body stop :: rest, ?_, ?_⟩
  · intro m hm
    rcases List.mem_cons.1 hm with rfl | hm
    · exact hfits
    · exact hrest m hm
  · simp [heq]

theorem declarationEvent_kind (name : Tree) (value : List Tree) (span : Span) :
    (declarationEvent name value span).kind = .declaration
      ∨ (declarationEvent name value span).kind = .customDeclaration := by
  unfold declarationEvent
  split <;> simp

/-- What is read in a context without a fault is nested as the context asks. -/
theorem Reading.nests {ctx : Context} {pos : Nat} {ts : List Tree} {p : Outcome}
    (h : Reading ctx pos ts p) : Nests ctx p := by
  induction h with
  | nil inner => exact nests_empty inner
  | filler _ _ _ ih => exact ih
  | comment inner _ _ ih => exact nests_comment inner rfl ih
  | rule _ _ ih => exact nests_rules_of_selectors ih
  | selector _ _ _ _ ih => exact nests_guarded (nests_selector rfl ih)
  | ruleset _ _ _ _ _ ihInside ih =>
    exact nests_guarded (nests_rulesetStart rfl rfl ihInside ih)
  | lastStatement inner =>
    rw [← Outcome.append_empty (.one _)]
    exact nests_guarded (nests_statement inner rfl (nests_empty inner))
  | statement inner _ _ _ _ ih => exact nests_guarded (nests_statement inner rfl ih)
  | block inner _ _ _ _ _ ihInside ih =>
    exact nests_guarded (nests_block inner rfl rfl rfl ihInside ih)
  | declaration _ _ _ _ _ _ ih =>
    exact nests_guarded (nests_declaration (declarationEvent_kind _ _ _) ih)
  | endInSelector | emptySelector | inSelector => exact nests_guarded (nests_fail _ _ _)
  | missingColon | inRules | inDeclarations => exact nests_fail _ _ _

/-! ## The outline -/

/-- The nodes of a stylesheet; none if its events are not nested. -/
def outline (source : String) : List Node := (nest (events source).events).getD []

/-- The events of a stylesheet without a fault are those of nodes at the top level. -/
theorem exists_outline {source : String} (h : (events source).error = none) :
    ∃ ns, (∀ n ∈ ns, Fits .rules n) ∧ (events source).events = eventsIn ns :=
  (reading_eventsOf .rules 0 (Tree.ofText source.toList)).nests.nested h

theorem outline_fits {source : String} (h : (events source).error = none) :
    ∀ n ∈ outline source, Fits .rules n := by
  obtain ⟨ns, hfits, heq⟩ := exists_outline h
  rwa [outline, heq, nest_eventsIn hfits]

/-- The outline holds the events of the stylesheet in order. -/
theorem outline_events {source : String} (h : (events source).error = none) :
    eventsIn (outline source) = (events source).events := by
  obtain ⟨ns, hfits, heq⟩ := exists_outline h
  rw [outline, heq, nest_eventsIn hfits, Option.getD_some]

end StyleSieve.Css
