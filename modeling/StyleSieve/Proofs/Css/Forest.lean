import StyleSieve.Css.Tree

/-!
# Brackets and trees

The trees of a text are just those whose brackets match, with blocks left open at the end of the
text only. Such trees are found again from their lexemes (`forest_lexemesOf`), and every text has
such trees (`bracketed_forest`).
-/

namespace StyleSieve.Css

namespace Tree

/-- The brackets of the trees match. They stand inside a block with the given bracket, if any, which
no leaf among them closes; the text may end after them, which leaves blocks open. -/
inductive Bracketed : Option Bracket → Bool → List Tree → Prop
  | nil {within : Option Bracket} {ended : Bool} : Bracketed within ended []
  | leaf {within : Option Bracket} {ended : Bool} {l : Lexeme} {ts : List Tree}
      (opens : l.token.opens = none) (closes : ∀ b ∈ within, l.token.closes ≠ some b)
      (rest : Bracketed within ended ts) : Bracketed within ended (.leaf l :: ts)
  | block {within : Option Bracket} {ended : Bool} {head close : Lexeme} {b : Bracket}
      {body ts : List Tree} (opens : head.token.opens = some b) (closes : close.token.closes = some b)
      (inside : Bracketed (some b) false body) (rest : Bracketed within ended ts) :
      Bracketed within ended (.block head body (some close) :: ts)
  | unclosed {within : Option Bracket} {head : Lexeme} {b : Bracket} {body : List Tree}
      (opens : head.token.opens = some b) (inside : Bracketed (some b) true body) :
      Bracketed within true [.block head body none]

namespace Bracketed

variable {within : Option Bracket} {ended : Bool} {ts us : List Tree}

theorem ends (h : Bracketed within false ts) : Bracketed within ended ts := by
  generalize he : false = closed at h
  induction h with
  | nil => exact .nil
  | leaf opens closes _ ih => exact .leaf opens closes (ih he)
  | block opens closes inside _ _ ih => exact .block opens closes inside (ih he)
  | unclosed => contradiction

/-- A bracket that would close the block around is one leaf of many elsewhere. -/
theorem outside (h : Bracketed within ended ts) : Bracketed none ended ts := by
  induction h with
  | nil => exact .nil
  | leaf opens _ _ ih => exact .leaf opens (by simp) ih
  | block opens closes inside _ _ ih => exact .block opens closes inside ih
  | unclosed opens inside => exact .unclosed opens inside

theorem append (h : Bracketed within false ts) (h' : Bracketed within ended us) :
    Bracketed within ended (ts ++ us) := by
  generalize he : false = closed at h
  induction h with
  | nil => exact h'
  | leaf opens closes _ ih => exact .leaf opens closes (ih h' he)
  | block opens closes inside _ _ ih => exact .block opens closes inside (ih h' he)
  | unclosed => contradiction

theorem right (h : Bracketed within ended (ts ++ us)) : Bracketed within ended us := by
  induction ts with
  | nil => exact h
  | cons t ts ih =>
    rw [List.cons_append] at h
    generalize hrest : ts ++ us = rest at h ih
    cases h with
    | leaf _ _ rest => exact ih rest
    | block _ _ _ rest => exact ih rest
    | unclosed =>
      rw [(List.append_eq_nil_iff.1 hrest).2]
      exact .nil

/-- Only the last block is left open. -/
theorem left (h : Bracketed within ended (ts ++ us)) (hus : us ≠ []) :
    Bracketed within false ts := by
  induction ts with
  | nil => exact .nil
  | cons t ts ih =>
    rw [List.cons_append] at h
    generalize hrest : ts ++ us = rest at h ih
    cases h with
    | leaf opens closes rest => exact .leaf opens closes (ih rest)
    | block opens closes inside rest => exact .block opens closes inside (ih rest)
    | unclosed => exact absurd (List.append_eq_nil_iff.1 hrest).2 hus

/-- The first of some trees leave nothing open if all of them do not. -/
theorem closed_left (h : Bracketed within false (ts ++ us)) : Bracketed within false ts := by
  cases us with
  | nil => rwa [List.append_nil] at h
  | cons u us => exact h.left (List.cons_ne_nil u us)

/-- A tree whose token opens no block is a leaf. -/
theorem exists_leaf {t : Tree} (h : Bracketed within ended ts) (ht : t ∈ ts)
    (hopens : t.token.opens = none) : ∃ l, t = .leaf l := by
  induction h with
  | nil => cases ht
  | leaf _ _ _ ih =>
    rcases List.mem_cons.1 ht with rfl | ht
    · exact ⟨_, rfl⟩
    · exact ih ht
  | block opens _ _ _ _ ih =>
    rcases List.mem_cons.1 ht with rfl | ht
    · exact absurd (opens.symm.trans hopens) (by simp)
    · exact ih ht
  | unclosed opens _ =>
    obtain rfl := List.mem_singleton.1 ht
    exact absurd (opens.symm.trans hopens) (by simp)

end Bracketed

/-- The bracket of the innermost open block. -/
def innermost (frames : List Frame) : Option Bracket := frames.head?.map Frame.bracket

/-- Brackets match in what has been read before the end and inside each open block. -/
inductive Open : List Frame → Bool → List Tree → Prop
  | base {ended : Bool} {done : List Tree} (read : Bracketed none ended done.reverse) :
      Open [] ended done
  | frame {f : Frame} {fs : List Frame} {ended : Bool} {done : List Tree}
      (opens : f.head.token.opens = some f.bracket)
      (read : Bracketed (some f.bracket) ended done.reverse) (outer : Open fs false f.before) :
      Open (f :: fs) ended done

theorem Open.ends {frames : List Frame} {done : List Tree} (h : Open frames false done) :
    Open frames true done := by
  cases h with
  | base read => exact .base read.ends
  | frame opens read outer => exact .frame opens read.ends outer

/-- One tree more in the innermost block. -/
theorem Open.push {frames : List Frame} {ended : Bool} {done : List Tree} {t : Tree}
    (h : Open frames false done) (ht : Bracketed (innermost frames) ended [t]) :
    Open frames ended (t :: done) := by
  cases h with
  | base read => exact .base (by rw [List.reverse_cons]; exact read.append ht)
  | frame opens read outer =>
    exact .frame opens (by rw [List.reverse_cons]; exact read.append ht) outer

theorem bracketed_unwind {frames : List Frame} {done : List Tree} (h : Open frames true done) :
    Bracketed none true (unwind frames done) := by
  induction frames generalizing done with
  | nil =>
    cases h with
    | base read => exact read
  | cons f fs ih =>
    cases h with
    | frame opens read outer => exact ih (outer.push (.unclosed opens read))

theorem bracketed_grow {frames : List Frame} {done : List Tree} (h : Open frames false done)
    (ls : List Lexeme) : Bracketed none true (grow frames done ls) := by
  fun_induction grow frames done ls with
  | case1 => exact bracketed_unwind h.ends
  | case2 _ _ _ _ _ hcloses ih =>
    cases h with
    | frame opens read outer => exact ih (outer.push (.block opens hcloses read .nil))
  | case3 _ _ _ _ _ _ _ hopens ih => exact ih (.frame hopens .nil h)
  | case4 _ _ _ _ _ hcloses hopens ih =>
    exact ih (h.push (.leaf hopens (by simpa [innermost] using hcloses) .nil))
  | case5 _ _ _ _ hopens ih => exact ih (.frame hopens .nil h)
  | case6 _ _ _ hopens ih => exact ih (h.push (.leaf hopens (by simp [innermost]) .nil))

/-- Every text has trees whose brackets match. -/
theorem bracketed_forest (ls : List Lexeme) : Bracketed none true (forest ls) :=
  bracketed_grow (.base .nil) ls

theorem closes_of_opens {token : Token} {b : Bracket} (h : token.opens = some b) :
    token.closes = none := by
  cases token <;> simp_all [Token.opens, Token.closes]

theorem grow_opening {l : Lexeme} {b : Bracket} (h : l.token.opens = some b) (frames : List Frame)
    (done : List Tree) (ls : List Lexeme) :
    grow frames done (l :: ls) = grow (⟨l, b, done⟩ :: frames) [] ls := by
  cases frames with
  | nil => simp [grow, h]
  | cons f fs => simp [grow, h, closes_of_opens h]

theorem grow_closing {f : Frame} {l : Lexeme} (h : l.token.closes = some f.bracket)
    (fs : List Frame) (done : List Tree) (ls : List Lexeme) :
    grow (f :: fs) done (l :: ls) = grow fs (block f.head done.reverse (some l) :: f.before) ls := by
  simp [grow, h]

theorem grow_leaf {l : Lexeme} {frames : List Frame} (opens : l.token.opens = none)
    (closes : ∀ b ∈ innermost frames, l.token.closes ≠ some b) (done : List Tree)
    (ls : List Lexeme) : grow frames done (l :: ls) = grow frames (leaf l :: done) ls := by
  cases frames with
  | nil => simp [grow, opens]
  | cons f fs => simp_all [grow, innermost]

/-- Trees that leave nothing open are read as so many trees more in the innermost block. -/
theorem grow_lexemesOf {within : Option Bracket} {ts : List Tree} (h : Bracketed within false ts)
    {frames : List Frame} (hwithin : within = innermost frames) (done : List Tree)
    (ls : List Lexeme) :
    grow frames done (lexemesOf ts ++ ls) = grow frames (ts.reverse ++ done) ls := by
  generalize he : false = ended at h
  induction h generalizing frames done ls with
  | nil => rfl
  | leaf opens closes rest ih =>
    subst hwithin
    rw [lexemesOf_cons, lexemes, List.append_assoc, List.singleton_append,
      grow_leaf opens closes, ih rfl _ _ he]
    simp
  | @block within ended head close b body ts opens closes inside rest ih_inside ih =>
    rw [lexemesOf_cons, lexemes]
    simp only [Option.toList_some, List.append_assoc, List.cons_append, List.nil_append]
    rw [grow_opening opens, ih_inside rfl _ _ rfl, grow_closing closes, ih hwithin _ _ he]
    simp
  | unclosed => contradiction

theorem grow_lexemesOf_ended {within : Option Bracket} {ts : List Tree}
    (h : Bracketed within true ts) {frames : List Frame} (hwithin : within = innermost frames)
    (done : List Tree) :
    grow frames done (lexemesOf ts) = unwind frames (ts.reverse ++ done) := by
  generalize he : true = ended at h
  induction h generalizing frames done with
  | nil => simp [grow]
  | leaf opens closes rest ih =>
    subst hwithin
    rw [lexemesOf_cons, lexemes, List.singleton_append, grow_leaf opens closes, ih rfl _ he]
    simp
  | @block within ended head close b body ts opens closes inside rest ih_inside ih =>
    rw [lexemesOf_cons, lexemes]
    simp only [Option.toList_some, List.append_assoc, List.cons_append, List.nil_append]
    rw [grow_opening opens, grow_lexemesOf inside rfl, grow_closing closes, ih hwithin _ he]
    simp
  | @unclosed within head b body opens inside ih =>
    rw [lexemesOf_cons, lexemes, lexemesOf_nil]
    simp only [Option.toList_none, List.append_nil]
    rw [grow_opening opens, ih rfl _ rfl]
    simp [unwind]

/-- Trees whose brackets match are found again from their lexemes. -/
theorem forest_lexemesOf {ts : List Tree} (h : Bracketed none true ts) :
    forest (lexemesOf ts) = ts := by
  rw [forest, grow_lexemesOf_ended h rfl]
  simp [unwind]

/-- A lexeme that opens no block is the first tree as it stands. -/
theorem forest_leaf {l : Lexeme} (h : l.token.opens = none) (ls : List Lexeme) :
    forest (l :: ls) = leaf l :: forest ls := by
  have hbrackets : Bracketed none true (leaf l :: forest ls) := .leaf h (by simp) (bracketed_forest ls)
  have hlexemes : lexemesOf (leaf l :: forest ls) = l :: ls := by
    simp [lexemes, forest_lexemes]
  rw [← hlexemes, forest_lexemesOf hbrackets]

/-- The first tree begins with the first lexeme. -/
theorem exists_cons_forest (l : Lexeme) (ls : List Lexeme) :
    ∃ t ts, forest (l :: ls) = t :: ts ∧ t.token = l.token := by
  have hlexemes := forest_lexemes (l :: ls)
  cases hforest : forest (l :: ls) with
  | nil => simp [hforest] at hlexemes
  | cons t ts =>
    rw [hforest, lexemesOf_cons] at hlexemes
    refine ⟨t, ts, rfl, ?_⟩
    cases t <;> exact congrArg Lexeme.token (List.cons.inj hlexemes).1

/-- The trees of a text are told by their lexemes, if their brackets match. -/
theorem ofText_eq {cs : List Char} {ts : List Tree} (h : Css.lexemes cs = lexemesOf ts)
    (hbrackets : Bracketed none true ts) : ofText cs = ts := by
  rw [ofText, h, forest_lexemesOf hbrackets]

end Tree

theorem widthOf_cons (t : Tree) (ts : List Tree) :
    Tree.widthOf (t :: ts) = t.width + Tree.widthOf ts := by
  simp [Tree.widthOf, Tree.width]

end StyleSieve.Css
