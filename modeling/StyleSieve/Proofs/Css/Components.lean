import StyleSieve.Proofs.Css.Places

/-!
# Component values and the source

A selector, a value or a prelude is cut into components, each a token or a whole block, with white
space and comments between them (`componentsFrom`). The values of its event are the texts of the
components in order, with one space between two of them just where the source has white space there
(`components_eq_values`); nothing else is dropped, and no space is left at the ends or doubled
(`Spaced`). Values of custom properties are kept as written and are not treated here.
-/

namespace StyleSieve.Css

open Text (At)
open StyleSieve.Css.Tree (isGap isWhite rawOf widthOf)

/-! ## Components -/

/-- A component with the byte where it begins, and what stands between it and the next one. -/
structure Component where
  start : Nat
  tree : Tree
  gap : List Tree

namespace Component

def stop (c : Component) : Nat := c.start + c.tree.width

/-- The component and what stands behind it. -/
def trees (c : Component) : List Tree := c.tree :: c.gap

/-- One space if there is white space behind the component. -/
def spaceBehind (c : Component) : List String := if c.gap.any isWhite then [" "] else []

/-- The texts of some components, with the spaces between them. -/
def values : List Component → List String
  | [] => []
  | [c] => [c.tree.text]
  | c :: next :: cs => c.tree.text :: (c.spaceBehind ++ values (next :: cs))

end Component

open Component (values)

/-- The components among some trees that begin at byte `pos`. -/
def componentsFrom (pos : Nat) : List Tree → List Component
  | [] => []
  | t :: ts =>
    if isGap t then componentsFrom (pos + t.width) ts
    else ⟨pos, t, ts.takeWhile isGap⟩ :: componentsFrom (pos + t.width) ts

/-- The tree is a token by itself or a whole block: from the bracket or the name that opens it to
the bracket that closes it, or to the end of the source. -/
inductive IsWhole (source : String) (pos : Nat) : Tree → Prop
  | token {l : Lexeme} (opens : l.token.opens = none) : IsWhole source pos (.leaf l)
  | closed {head close : Lexeme} {body : List Tree} {b : Bracket}
      (opens : head.token.opens = some b) (closes : close.token.closes = some b) :
      IsWhole source pos (.block head body (some close))
  | leftOpen {head : Lexeme} {body : List Tree} {b : Bracket} (opens : head.token.opens = some b)
      (stop : pos + (Tree.block head body none).width = source.utf8ByteSize) :
      IsWhole source pos (.block head body none)

/-- The component is one of the token trees of the source. Nothing but white space and comments
stands behind it. -/
structure Component.Shown (source : String) (c : Component) : Prop where
  within : ∃ rest, Within source c.start (c.trees ++ rest)
  whole : IsWhole source c.start c.tree
  not_gap : isGap c.tree = false
  gap : ∀ t ∈ c.gap, isGap t = true
  slice : Text.slice source c.start c.stop = c.tree.text
  slice_gap : Text.slice source c.stop (c.stop + widthOf c.gap) = String.ofList (rawOf c.gap)
  not_empty : c.tree.text ≠ ""
  not_space : c.tree.text ≠ " "

/-- The trees from byte `pos` on are white space and comments, and then components one after
another. -/
structure Dissected (source : String) (pos : Nat) (vs lead : List Tree) (cs : List Component) :
    Prop where
  trees : vs = lead ++ cs.flatMap Component.trees
  gap : ∀ t ∈ lead, isGap t = true
  slice : Text.slice source pos (pos + widthOf lead) = String.ofList (rawOf lead)
  shown : ∀ c ∈ cs, c.Shown source
  first : ∀ c ∈ cs.head?, c.start = pos + widthOf lead
  next : ∀ before c d after, cs = before ++ c :: d :: after → d.start = c.stop + widthOf c.gap
  apart : cs.Pairwise fun c d => c.stop ≤ d.start

/-- No space begins or ends the values, and no two of them stand next to each other. -/
structure Spaced (values : List String) : Prop where
  first : values.head? ≠ some " "
  last : values.getLast? ≠ some " "
  single : ∀ before after, values ≠ before ++ " " :: " " :: after

/-- The trees of a selector, a value or a prelude begin at byte `pos`. The span of a selector leaves
out blanks around it, that of a declaration ends with its value, and a prelude follows its
keyword. -/
structure StandsFrom (source : String) (e : Event) (pos : Nat) (vs : List Tree) : Prop where
  within : ∃ rest, Within source pos (vs ++ rest)
  place : match e.kind with
    | .selector | .rulesetStart =>
      e.span.start = pos + Text.width ((rawOf vs).takeWhile Text.isBlank)
    | .declaration => e.span.stop = pos + widthOf vs
    | _ => pos = e.span.start + e.data.utf8ByteSize

section

variable {source : String} {pos : Nat} {t : Tree} {ts vs rest : List Tree} {c : Component}
  {cs : List Component} {e : Event}

theorem componentsFrom_gap (h : isGap t = true) :
    componentsFrom pos (t :: ts) = componentsFrom (pos + t.width) ts := by
  rw [componentsFrom, if_pos h]

theorem componentsFrom_component (h : isGap t = false) :
    componentsFrom pos (t :: ts) =
      ⟨pos, t, ts.takeWhile isGap⟩ :: componentsFrom (pos + t.width) ts := by
  rw [componentsFrom, if_neg (by simp [h])]

/-! ## Values -/

theorem values_cons (c : Component) (h : cs ≠ []) :
    values (c :: cs) = c.tree.text :: (c.spaceBehind ++ values cs) := by
  obtain ⟨next, cs, rfl⟩ := List.exists_cons_of_ne_nil h
  rfl

theorem isWhitespace_of_isComment {token : Token} (h : token.isComment = true) :
    token.isWhitespace = false := by
  cases token <;> first | rfl | contradiction

/-- Reading goes on after a component, and after a gap that may have had white space in it. -/
theorem componentsAfter_true (gap : Bool) (pos : Nat) (ts : List Tree) :
    componentsAfter true gap ts =
      if componentsFrom pos ts = [] then []
      else (if gap || (ts.takeWhile isGap).any isWhite then [" "] else []) ++
        values (componentsFrom pos ts) := by
  induction ts generalizing gap pos with
  | nil => rfl
  | cons t ts ih =>
    rw [componentsAfter]
    by_cases hgap : isGap t = true
    · rw [componentsFrom_gap hgap, List.takeWhile_cons_of_pos hgap, List.any_cons]
      by_cases hcomment : t.token.isComment = true
      · have hwhite : isWhite t = false := isWhitespace_of_isComment hcomment
        rw [if_pos hcomment, hwhite, Bool.false_or, ih gap (pos + t.width)]
      · have hwhite : isWhite t = true := by
          rw [isGap, Bool.or_eq_true] at hgap
          exact hgap.resolve_right hcomment
        have htoken : t.token.isWhitespace = true := hwhite
        rw [if_neg hcomment, if_pos htoken, hwhite, ih true (pos + t.width)]
        simp
    · have hgap := eq_false_of_ne_true hgap
      have hneither : t.token.isWhitespace = false ∧ t.token.isComment = false := by
        rwa [isGap, Bool.or_eq_false_iff] at hgap
      rw [componentsFrom_component hgap, List.takeWhile_cons_of_neg (by simp [hgap])]
      rw [if_neg (by simp [hneither.2]), if_neg (by simp [hneither.1]), ih false (pos + t.width)]
      by_cases hnext : componentsFrom (pos + t.width) ts = []
      · cases gap <;> simp [hnext, values]
      · rw [values_cons _ hnext]
        cases gap <;> simp [hnext, Component.spaceBehind]

/-- The component values of some trees are those of their components. -/
theorem components_eq_values (pos : Nat) (ts : List Tree) :
    components ts = values (componentsFrom pos ts) := by
  have hstart : ∀ gap, componentsAfter false gap ts = values (componentsFrom pos ts) := by
    induction ts generalizing pos with
    | nil => intro gap; rfl
    | cons t ts ih =>
      intro gap
      rw [componentsAfter]
      by_cases hgap : isGap t = true
      · rw [componentsFrom_gap hgap]
        by_cases hcomment : t.token.isComment = true
        · rw [if_pos hcomment, ih]
        · have htoken : t.token.isWhitespace = true := by
            rw [isGap, Bool.or_eq_true] at hgap
            exact hgap.resolve_right hcomment
          rw [if_neg hcomment, if_pos htoken, ih]
      · have hgap := eq_false_of_ne_true hgap
        have hneither : t.token.isWhitespace = false ∧ t.token.isComment = false := by
          rwa [isGap, Bool.or_eq_false_iff] at hgap
        rw [componentsFrom_component hgap, if_neg (by simp [hneither.2]),
          if_neg (by simp [hneither.1]), Bool.false_and, if_neg Bool.false_ne_true,
          componentsAfter_true false (pos + t.width)]
        by_cases hnext : componentsFrom (pos + t.width) ts = []
        · rw [if_pos hnext, hnext]
          rfl
        · rw [if_neg hnext, values_cons _ hnext, Component.spaceBehind, Bool.false_or]
  exact hstart false

/-! ## Spaces -/

theorem head?_values (cs : List Component) :
    (values cs).head? = cs.head?.map fun c => c.tree.text := by
  rcases cs with _ | ⟨c, _ | ⟨next, cs⟩⟩ <;> rfl

theorem values_ne_nil (h : cs ≠ []) : values cs ≠ [] := by
  obtain ⟨c, cs, rfl⟩ := List.exists_cons_of_ne_nil h
  intro hnil
  have hhead := head?_values (c :: cs)
  rw [hnil] at hhead
  simp at hhead

theorem getLast?_values (cs : List Component) :
    (values cs).getLast? = cs.getLast?.map fun c => c.tree.text := by
  induction cs with
  | nil => rfl
  | cons c cs ih =>
    rcases cs with _ | ⟨next, cs⟩
    · rfl
    · have hnext := List.cons_ne_nil next cs
      rw [values_cons c hnext, ← List.cons_append, List.getLast?_append,
        List.getLast?_cons_cons, ← ih, Option.or_of_isSome]
      exact List.getLast?_isSome.2 (values_ne_nil hnext)

/-- Two spaces never stand next to each other. -/
theorem values_ne_double (h : ∀ c ∈ cs, c.tree.text ≠ " ") (before after : List String) :
    values cs ≠ before ++ " " :: " " :: after := by
  induction cs generalizing before with
  | nil =>
    intro heq
    exact absurd (congrArg List.length heq) (by simp [values])
  | cons c cs ih =>
    obtain ⟨hc, hcs⟩ := List.forall_mem_cons.1 h
    rcases cs with _ | ⟨next, cs⟩
    · intro heq
      have hlength := congrArg List.length heq
      rw [values, List.length_append] at hlength
      simp only [List.length_cons, List.length_nil] at hlength
      omega
    · have hnext : (values (next :: cs)).head? = some next.tree.text := head?_values _
      have hspace : next.tree.text ≠ " " := hcs next List.mem_cons_self
      rw [values_cons c (List.cons_ne_nil next cs)]
      rcases before with _ | ⟨v, before⟩
      · intro heq
        exact hc (List.cons.inj heq).1
      · intro heq
        have hrest := (List.cons.inj heq).2
        rw [Component.spaceBehind] at hrest
        split at hrest
        · rcases before with _ | ⟨w, before⟩
          · have hhead := congrArg List.head? (List.cons.inj hrest).2
            exact hspace (Option.some.inj (hnext.symm.trans hhead))
          · exact ih hcs before (List.cons.inj hrest).2
        · exact ih hcs before hrest

/-- Components that are no spaces leave no space at the ends and none next to another. -/
theorem spaced_values (h : ∀ c ∈ cs, c.tree.text ≠ " ") : Spaced (values cs) where
  first := by
    rw [head?_values]
    intro hfirst
    obtain ⟨c, hc, htext⟩ := Option.map_eq_some_iff.1 hfirst
    exact h c (List.mem_of_head? hc) htext
  last := by
    rw [getLast?_values]
    intro hlast
    obtain ⟨c, hc, htext⟩ := Option.map_eq_some_iff.1 hlast
    exact h c (List.mem_of_getLast? hc) htext
  single := values_ne_double h

/-! ## Where the components stand -/

theorem Within.isWhole (h : Within source pos (t :: rest)) : IsWhole source pos t := by
  obtain ⟨_, _, before, after, hbracketed, hsource, hpos, hended⟩ := h.located
  cases hbracketed with
  | leaf opens => exact .token opens
  | block opens closes => exact .closed opens closes
  | unclosed opens =>
    refine .leftOpen opens ?_
    have hall := congrArg Text.width hsource
    rw [hended rfl, List.append_nil, Tree.rawOf_cons, Tree.rawOf_nil, List.append_nil,
      Text.width_append, hpos] at hall
    rw [Text.utf8ByteSize_eq_width, hall, Tree.width]

/-- A tree that is no gap is not empty, and its text is not a space. -/
theorem Within.text_ne (h : Within source pos (t :: rest)) (hgap : isGap t = false) :
    t.text ≠ "" ∧ t.text ≠ " " := by
  obtain ⟨_, _, _, hstands⟩ := h.stands
  obtain ⟨c, u, hraw, hspace, -⟩ := exists_raw_eq_cons hstands.reads
  have hwhite : isSpace c = false := by
    rw [hspace]
    exact (Bool.or_eq_false_iff.1 hgap).1
  rw [Tree.text, hraw]
  refine ⟨fun hempty => ?_, fun hone => ?_⟩
  · exact List.cons_ne_nil c u (String.ofList_eq_empty_iff.1 hempty)
  · have hchars : c :: u = [' '] := by
      have := congrArg String.toList hone
      simpa using this
    obtain ⟨rfl, -⟩ := List.cons.inj hchars
    exact absurd hwhite (by decide)

theorem start_componentsFrom (ts : List Tree) :
    ∀ c ∈ (componentsFrom pos ts).head?, c.start = pos + widthOf (ts.takeWhile isGap) := by
  induction ts generalizing pos with
  | nil => simp [componentsFrom]
  | cons t ts ih =>
    intro c hc
    by_cases hgap : isGap t = true
    · rw [componentsFrom_gap hgap] at hc
      rw [List.takeWhile_cons_of_pos hgap, widthOf_cons, ih c hc, Nat.add_assoc]
    · rw [componentsFrom_component (eq_false_of_ne_true hgap)] at hc
      obtain rfl := Option.some.inj hc
      rw [List.takeWhile_cons_of_neg hgap]
      rfl

theorem le_start_componentsFrom (ts : List Tree) :
    ∀ c ∈ componentsFrom pos ts, pos ≤ c.start := by
  induction ts generalizing pos with
  | nil => simp [componentsFrom]
  | cons t ts ih =>
    intro c hc
    by_cases hgap : isGap t = true
    · rw [componentsFrom_gap hgap] at hc
      exact Nat.le_of_add_right_le (ih c hc)
    · rw [componentsFrom_component (eq_false_of_ne_true hgap)] at hc
      rcases List.mem_cons.1 hc with rfl | hc
      · exact Nat.le_refl pos
      · exact Nat.le_of_add_right_le (ih c hc)

/-- A component begins where the gap behind the one before it ends. -/
theorem next_componentsFrom {ts : List Tree} {before after : List Component} {c d : Component}
    (h : componentsFrom pos ts = before ++ c :: d :: after) :
    d.start = c.stop + widthOf c.gap := by
  induction ts generalizing pos before with
  | nil => simp [componentsFrom] at h
  | cons t ts ih =>
    by_cases hgap : isGap t = true
    · rw [componentsFrom_gap hgap] at h
      exact ih h
    · rw [componentsFrom_component (eq_false_of_ne_true hgap)] at h
      rcases before with _ | ⟨b, before⟩
      · obtain ⟨rfl, hrest⟩ := List.cons.inj h
        exact start_componentsFrom ts d (by simp [Component.stop, hrest])
      · exact ih (List.cons.inj h).2

/-- A tree that is no gap is shown as a component. -/
theorem shown_component (h : Within source pos (t :: (vs ++ rest))) (hgap : isGap t = false) :
    Component.Shown source ⟨pos, t, vs.takeWhile isGap⟩ := by
  have hsplit : vs = vs.takeWhile isGap ++ vs.dropWhile isGap :=
    List.takeWhile_append_dropWhile.symm
  have hbehind : At source (pos + t.width) (rawOf (vs.takeWhile isGap)) := by
    have hshown := h.later.shown_left
    rw [hsplit, Tree.rawOf_append] at hshown
    exact hshown.left
  refine
    { within := ⟨vs.dropWhile isGap ++ rest, ?_⟩
      whole := h.isWhole
      not_gap := hgap
      gap := fun u hu => List.all_eq_true.1 List.all_takeWhile u hu
      slice := h.shown_first.slice_eq
      slice_gap := hbehind.slice_eq
      not_empty := (h.text_ne hgap).1
      not_space := (h.text_ne hgap).2 }
  rw [Component.trees, List.cons_append, ← List.append_assoc, ← hsplit]
  exact h

/-- Trees of the source are dissected into their components. -/
theorem dissected_componentsFrom (h : Within source pos (vs ++ rest)) :
    Dissected source pos vs (vs.takeWhile isGap) (componentsFrom pos vs) := by
  have hslice : At source pos (rawOf (vs.takeWhile isGap)) := by
    have hshown := h.shown_left
    rw [← List.takeWhile_append_dropWhile (p := isGap) (l := vs), Tree.rawOf_append] at hshown
    exact hshown.left
  have hrest : vs = vs.takeWhile isGap ++ (componentsFrom pos vs).flatMap Component.trees ∧
      (∀ c ∈ componentsFrom pos vs, c.Shown source) ∧
      (componentsFrom pos vs).Pairwise fun c d => c.stop ≤ d.start := by
    clear hslice
    induction vs generalizing pos with
    | nil => exact ⟨rfl, by simp [componentsFrom], .nil⟩
    | cons t vs ih =>
      obtain ⟨htrees, hshown, hapart⟩ := ih h.later
      by_cases hgap : isGap t = true
      · rw [componentsFrom_gap hgap, List.takeWhile_cons_of_pos hgap]
        exact ⟨congrArg (t :: ·) htrees, hshown, hapart⟩
      · have hgap := eq_false_of_ne_true hgap
        rw [componentsFrom_component hgap, List.takeWhile_cons_of_neg (by simp [hgap])]
        refine ⟨?_, List.forall_mem_cons.2 ⟨shown_component h hgap, hshown⟩,
          List.pairwise_cons.2 ⟨fun d hd => le_start_componentsFrom vs d hd, hapart⟩⟩
        rw [List.nil_append, List.flatMap_cons, Component.trees, List.cons_append, ← htrees]
  exact
    { trees := hrest.1
      gap := fun t ht => List.all_eq_true.1 List.all_takeWhile t ht
      slice := hslice.slice_eq
      shown := hrest.2.1
      first := start_componentsFrom vs
      next := fun _ _ _ _ hsplit => next_componentsFrom hsplit
      apart := hrest.2.2 }

/-- Selectors, values and preludes stand where their events say. -/
theorem Origin.standsFrom (h : Origin source e vs) : ∃ pos, StandsFrom source e pos vs := by
  cases h with
  | @selector pos t rest within _ kind _ start =>
    refine ⟨pos, ⟨t :: rest, within⟩, ?_⟩
    rcases kind with ⟨kind, -⟩ | ⟨kind, -⟩
    all_goals
      rw [kind]
      exact start
  | @value pos name colon gap rest within _ _ _ _ kind _ span =>
    refine ⟨pos + name.width + widthOf gap + colon.width, ⟨rest, within.later.drop.later⟩, ?_⟩
    rw [kind, span]
    simp [widthOf, Tree.width, Nat.add_assoc]
  | @prelude pos keyword rest within _ _ kind data start =>
    refine ⟨pos + keyword.width, ⟨rest, within.later⟩, ?_⟩
    have hplace : pos + keyword.width = e.span.start + e.data.utf8ByteSize := by
      rw [start, data, Tree.text, Text.utf8ByteSize_ofList, Tree.width]
    split at kind
    all_goals
      rw [kind]
      exact hplace

/-- The values of an event are the tokens and blocks of its selector, value or prelude, as they
stand in the source one after another. What lies around and between them is white space and
comments, and a space stands between two of them iff white space does. -/
theorem values_of_components (he : e ∈ (events source).events)
    (hkind : e.kind.hasComponents = true) :
    ∃ pos vs lead cs, Origin source e vs ∧ StandsFrom source e pos vs ∧
      Dissected source pos vs lead cs ∧ e.values = values cs ∧ Spaced e.values := by
  obtain ⟨vs, horigin, -, hvalues⟩ := (reading_eventsOf _ _ _).hasOrigin .text he hkind
  obtain ⟨pos, hstands⟩ := horigin.standsFrom
  obtain ⟨rest, hwithin⟩ := hstands.within
  have hdissected := dissected_componentsFrom hwithin
  rw [components_eq_values pos] at hvalues
  refine ⟨pos, vs, _, _, horigin, hstands, hdissected, hvalues, ?_⟩
  rw [hvalues]
  exact spaced_values fun c hc => (hdissected.shown c hc).not_space

/-- Three components of a value, the last a block that the source does not close. -/
theorem values_of_components_left_open :
    let source := "a\x7bb:c/**/ d/**/(e"
    let e : Event := ⟨.declaration, "b", ["c", " ", "d", "(e"], ⟨2, 17⟩⟩
    ∃ pos vs lead cs, Origin source e vs ∧ StandsFrom source e pos vs ∧
      Dissected source pos vs lead cs ∧ e.values = values cs ∧ Spaced e.values :=
  values_of_components (by decide +kernel) rfl

end

end StyleSieve.Css
