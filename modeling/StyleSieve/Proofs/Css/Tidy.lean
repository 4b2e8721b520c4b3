import StyleSieve.Proofs.Css.Forest
import StyleSieve.Proofs.Css.Grammar
import StyleSieve.Proofs.Css.Lexing

/-!
# Tidied values

The values of an event are those of the trees it was read from, without comments and with one space
for all white space inside.
-/

namespace StyleSieve.Css

namespace Tree

/-! ## Tidying -/

def isWhite (t : Tree) : Bool := t.token.isWhitespace

/-- One space. -/
def space : Tree := .leaf ⟨.whitespace " ", [' ']⟩

/-- The trees with one space for every run of white space. -/
def collapse : List Tree → List Tree
  | [] => []
  | t :: ts =>
    let rest := collapse ts
    if !t.isWhite then t :: rest
    else if rest.head?.any isWhite then rest
    else space :: rest

/-- The trees without white space at their end. -/
def trimEnd : List Tree → List Tree
  | [] => []
  | t :: ts =>
    let rest := trimEnd ts
    if rest.isEmpty && t.isWhite then [] else t :: rest

/-- The trees without comments and without white space around them, and with one space for every run
of white space inside. -/
def tidy (ts : List Tree) : List Tree :=
  trimEnd ((collapse (ts.filter (!·.token.isComment))).dropWhile isWhite)

/-- Tidied trees after `started` trees and, if `gap`, some white space. -/
def tidyAfter (started gap : Bool) : List Tree → List Tree
  | [] => []
  | t :: ts =>
    if t.token.isComment then tidyAfter started gap ts
    else if t.isWhite then tidyAfter started true ts
    else if started && gap then space :: t :: tidyAfter true false ts
    else t :: tidyAfter true false ts

theorem componentsAfter_eq_map (started gap : Bool) (ts : List Tree) :
    componentsAfter started gap ts = (tidyAfter started gap ts).map text := by
  induction ts generalizing started gap with
  | nil => rfl
  | cons t ts ih =>
    rw [componentsAfter, tidyAfter]
    split
    · exact ih started gap
    · unfold isWhite
      split
      · exact ih started true
      · split
        · rw [ih]
          rfl
        · rw [ih]
          rfl

theorem trimEnd_cons_of_not_white {t : Tree} (h : t.isWhite = false) (ts : List Tree) :
    trimEnd (t :: ts) = t :: trimEnd ts := by
  simp [trimEnd, h]

theorem collapse_cons_of_not_white {t : Tree} (h : t.isWhite = false) (ts : List Tree) :
    collapse (t :: ts) = t :: collapse ts := by
  simp [collapse, h]

theorem isWhite_space : space.isWhite = true := rfl

theorem collapse_cons_white {t : Tree} (h : t.isWhite = true) (ts : List Tree) :
    collapse (t :: ts) = collapse (space :: ts) := by
  simp [collapse, h, isWhite_space]

theorem collapse_white_white {t : Tree} (h : t.isWhite = true) (ts : List Tree) :
    collapse (space :: t :: ts) = collapse (space :: ts) := by
  rw [← collapse_cons_white h ts]
  generalize hrest : collapse (t :: ts) = rest
  have hhead : rest.head?.any isWhite = true := by
    rw [← hrest, collapse]
    simp only [h, Bool.not_true, Bool.false_eq_true, if_false]
    split
    · assumption
    · rfl
  rw [collapse, hrest]
  simp [isWhite_space, hhead]

theorem isWhite_head_collapse {t : Tree} (h : t.isWhite = true) (ts : List Tree) :
    (collapse (t :: ts)).dropWhile isWhite = (collapse ts).dropWhile isWhite := by
  rw [collapse_cons_white h, collapse]
  simp only [isWhite_space, Bool.not_true, Bool.false_eq_true, if_false]
  split
  · rfl
  · rw [List.dropWhile_cons_of_pos isWhite_space]

/-- Tidying goes on from left to right once a tree has been kept. -/
theorem tidyAfter_true (gap : Bool) (ts : List Tree) :
    tidyAfter true gap ts =
      trimEnd (collapse ((if gap then [space] else []) ++ ts.filter (!·.token.isComment))) := by
  induction ts generalizing gap with
  | nil => cases gap <;> rfl
  | cons t ts ih =>
    rw [tidyAfter]
    cases hcomment : t.token.isComment with
    | true =>
      rw [if_pos rfl, ih, List.filter_cons_of_neg (by simp [hcomment])]
    | false =>
    rw [if_neg (by simp), List.filter_cons_of_pos (by simp [hcomment])]
    generalize ts.filter (!·.token.isComment) = us at ih ⊢
    cases hwhite : t.isWhite with
    | true =>
      rw [if_pos rfl, ih]
      cases gap with
      | true => exact congrArg trimEnd (collapse_white_white hwhite us).symm
      | false => exact congrArg trimEnd (collapse_cons_white hwhite us).symm
    | false =>
      have hrest : trimEnd (collapse (t :: us)) = t :: tidyAfter true false ts := by
        rw [collapse_cons_of_not_white hwhite, trimEnd_cons_of_not_white hwhite, ih]
        rfl
      cases gap with
      | false => exact hrest.symm
      | true =>
        have hspace : collapse (space :: t :: us) = space :: collapse (t :: us) := by
          rw [collapse_cons_of_not_white hwhite, collapse, collapse_cons_of_not_white hwhite]
          simp [isWhite_space, hwhite]
        simp only [Bool.and_self, Bool.false_eq_true, if_false, if_true, List.singleton_append]
        rw [hspace, trimEnd, hrest]
        simp

theorem tidyAfter_false (gap : Bool) (ts : List Tree) : tidyAfter false gap ts = tidy ts := by
  unfold tidy
  induction ts generalizing gap with
  | nil => rfl
  | cons t ts ih =>
    rw [tidyAfter]
    cases hcomment : t.token.isComment with
    | true => rw [if_pos rfl, ih, List.filter_cons_of_neg (by simp [hcomment])]
    | false =>
    rw [if_neg (by simp), List.filter_cons_of_pos (by simp [hcomment])]
    cases hwhite : t.isWhite with
    | true => rw [if_pos rfl, ih, isWhite_head_collapse hwhite]
    | false =>
      rw [collapse_cons_of_not_white hwhite, List.dropWhile_cons_of_neg (by simp [hwhite]),
        trimEnd_cons_of_not_white hwhite, tidyAfter_true]
      rfl

/-- The component values of some trees are the texts of the tidied trees. -/
theorem components_eq_map (ts : List Tree) : components ts = (tidy ts).map text := by
  rw [components, componentsAfter_eq_map, tidyAfter_false]

/-! ## Tidied trees stay as they are -/

theorem mem_tidyAfter {started gap : Bool} {ts : List Tree} {t : Tree}
    (h : t ∈ tidyAfter started gap ts) : t = space ∨ t ∈ ts ∧ isGap t = false := by
  induction ts generalizing started gap with
  | nil => simp [tidyAfter] at h
  | cons u ts ih =>
    have hrest : ∀ {started gap}, t ∈ tidyAfter started gap ts →
        t = space ∨ t ∈ u :: ts ∧ isGap t = false := fun h =>
      (ih h).imp_right fun ⟨hmem, hgap⟩ => ⟨List.mem_cons_of_mem u hmem, hgap⟩
    rw [tidyAfter] at h
    split at h
    · exact hrest h
    · next hcomment =>
      split at h
      · exact hrest h
      · next hwhite =>
        have hu : isGap u = false := by
          rw [isGap, Bool.or_eq_false_iff]
          exact ⟨eq_false_of_ne_true hwhite, eq_false_of_ne_true hcomment⟩
        split at h
        · rcases List.mem_cons.1 h with rfl | h
          · exact .inl rfl
          · rcases List.mem_cons.1 h with rfl | h
            · exact .inr ⟨List.mem_cons_self, hu⟩
            · exact hrest h
        · rcases List.mem_cons.1 h with rfl | h
          · exact .inr ⟨List.mem_cons_self, hu⟩
          · exact hrest h

theorem tidyAfter_gap_cons {t : Tree} (h : isGap t = true) (started gap : Bool) (ts : List Tree) :
    ∃ gap', tidyAfter started gap (t :: ts) = tidyAfter started gap' ts := by
  simp only [isGap, Bool.or_eq_true] at h
  rw [tidyAfter]
  split
  · exact ⟨gap, rfl⟩
  · next hcomment => exact ⟨true, if_pos (h.resolve_right hcomment)⟩

theorem tidyAfter_component {t : Tree} (h : isGap t = false) (started gap : Bool)
    (ts : List Tree) :
    tidyAfter started gap (t :: ts) =
      (if started && gap then [space] else []) ++ t :: tidyAfter true false ts := by
  simp only [isGap, Bool.or_eq_false_iff] at h
  have hwhite : t.isWhite = false := h.1
  rw [tidyAfter, if_neg (by simp [h.2]), if_neg (by simp [hwhite])]
  split <;> rfl

theorem tidyAfter_space (started gap : Bool) (ts : List Tree) :
    tidyAfter started gap (space :: ts) = tidyAfter started true ts := rfl

theorem tidyAfter_tidyAfter (started gap : Bool) (ts : List Tree) :
    tidyAfter started false (tidyAfter started gap ts) = tidyAfter started gap ts := by
  induction ts generalizing started gap with
  | nil => rfl
  | cons t ts ih =>
    cases hgap : isGap t with
    | true =>
      obtain ⟨gap', hnext⟩ := tidyAfter_gap_cons hgap started gap ts
      rw [hnext, ih]
    | false =>
      rw [tidyAfter_component hgap]
      split
      · next hspace =>
        rw [Bool.and_eq_true] at hspace
        rw [List.singleton_append, tidyAfter_space, tidyAfter_component hgap, hspace.1, ih]
        rfl
      · rw [List.nil_append, tidyAfter_component hgap, ih, Bool.and_false]
        rfl

theorem tidy_tidy (ts : List Tree) : tidy (tidy ts) = tidy ts := by
  rw [← tidyAfter_false false ts, ← tidyAfter_false false, tidyAfter_tidyAfter]

theorem components_tidy (ts : List Tree) : components (tidy ts) = components ts := by
  rw [components_eq_map, components_eq_map, tidy_tidy]

theorem not_isGap_head_tidyAfter (gap : Bool) (ts : List Tree) :
    ∀ t ∈ (tidyAfter false gap ts).head?, isGap t = false := by
  induction ts generalizing gap with
  | nil => simp [tidyAfter]
  | cons t ts ih =>
    cases hgap : isGap t with
    | true =>
      obtain ⟨gap', hnext⟩ := tidyAfter_gap_cons hgap false gap ts
      rw [hnext]
      exact ih gap'
    | false =>
      rw [tidyAfter_component hgap, Bool.false_and]
      intro u hu
      obtain rfl : t = u := Option.some.inj hu
      exact hgap

/-- Tidied trees begin with neither white space nor a comment. -/
theorem not_isGap_head_tidy (ts : List Tree) : ∀ t ∈ (tidy ts).head?, isGap t = false := by
  rw [← tidyAfter_false false ts]
  exact not_isGap_head_tidyAfter false ts

/-- The trees without white space around them. -/
def trim (ts : List Tree) : List Tree := trimEnd (ts.dropWhile isWhite)

theorem exists_trimEnd (ts : List Tree) :
    ∃ after, ts = trimEnd ts ++ after ∧ (∀ t ∈ after, t.isWhite = true) ∧
      ∀ t ∈ (trimEnd ts).getLast?, t.isWhite = false := by
  induction ts with
  | nil => exact ⟨[], rfl, by simp, by simp [trimEnd]⟩
  | cons t ts ih =>
    obtain ⟨after, hsplit, hafter, hlast⟩ := ih
    rw [trimEnd]
    split
    · next h =>
      rw [Bool.and_eq_true, List.isEmpty_iff] at h
      rw [h.1, List.nil_append] at hsplit
      refine ⟨t :: ts, rfl, List.forall_mem_cons.2 ⟨h.2, hsplit ▸ hafter⟩, by simp⟩
    · next h =>
      refine ⟨after, by rw [List.cons_append, ← hsplit], hafter, ?_⟩
      cases hrest : trimEnd ts with
      | nil =>
        rw [hrest] at h
        simpa using h
      | cons u us =>
        rw [hrest] at hlast
        rwa [List.getLast?_cons_cons]

theorem exists_trim (ts : List Tree) :
    ∃ before after, ts = before ++ trim ts ++ after ∧ (∀ t ∈ before, t.isWhite = true) ∧
      (∀ t ∈ after, t.isWhite = true) ∧ ∀ t ∈ (trim ts).getLast?, t.isWhite = false := by
  obtain ⟨after, hsplit, hafter, hlast⟩ := exists_trimEnd (ts.dropWhile isWhite)
  refine ⟨ts.takeWhile isWhite, after, ?_, List.all_eq_true.1 List.all_takeWhile, hafter, hlast⟩
  rw [List.append_assoc, trim, ← hsplit, List.takeWhile_append_dropWhile]

theorem trimEnd_of_last {ts : List Tree} (h : ∀ t ∈ ts.getLast?, t.isWhite = false) :
    trimEnd ts = ts := by
  induction ts with
  | nil => rfl
  | cons t ts ih =>
    rw [trimEnd]
    cases ts with
    | nil => simp [trimEnd, h t rfl]
    | cons u us =>
      rw [ih (by rwa [List.getLast?_cons_cons] at h)]
      rfl

theorem not_isWhite_head_trim (ts : List Tree) : ∀ t ∈ (trim ts).head?, t.isWhite = false := by
  intro t ht
  obtain ⟨rest, hrest, -, -⟩ := exists_trimEnd (ts.dropWhile isWhite)
  have hhead : (ts.dropWhile isWhite).head? = some t := by
    rw [hrest, List.head?_append, ← trim, Option.mem_def.1 ht, Option.some_or]
  have hnot := List.head?_dropWhile_not isWhite ts
  rwa [hhead] at hnot

theorem trim_trim (ts : List Tree) : trim (trim ts) = trim ts := by
  obtain ⟨before, after, hsplit, hbefore, hafter, hlast⟩ := exists_trim ts
  have hhead : (trim ts).dropWhile isWhite = trim ts := by
    have hfirst := not_isWhite_head_trim ts
    cases htrim : trim ts with
    | nil => rfl
    | cons t us =>
      rw [htrim] at hfirst
      rw [List.dropWhile_cons_of_neg]
      simp [hfirst t rfl]
  rw [trim, hhead, trimEnd_of_last hlast]

/-! ## Gaps at the ends -/

theorem tidyAfter_append_gaps {ts us : List Tree} (h : ∀ t ∈ us, isGap t = true)
    (started gap : Bool) :
    tidyAfter started gap (ts ++ us) = tidyAfter started gap ts := by
  have hgaps : ∀ started gap, tidyAfter started gap us = [] := by
    induction us with
    | nil => exact fun _ _ => rfl
    | cons u us ih =>
      intro started gap
      obtain ⟨gap', hnext⟩ := tidyAfter_gap_cons (h u List.mem_cons_self) started gap us
      rw [hnext]
      exact ih (fun t ht => h t (List.mem_cons_of_mem u ht)) _ _
  induction ts generalizing started gap with
  | nil => exact hgaps started gap
  | cons t ts ih => simp only [List.cons_append, tidyAfter, ih]

theorem tidy_gaps_append {ts us : List Tree} (h : ∀ t ∈ us, isGap t = true) :
    tidy (us ++ ts) = tidy ts := by
  induction us with
  | nil => rfl
  | cons u us ih =>
    obtain ⟨gap, hnext⟩ := tidyAfter_gap_cons (h u List.mem_cons_self) false false (us ++ ts)
    rw [List.cons_append, ← tidyAfter_false false, hnext, tidyAfter_false]
    exact ih fun t ht => h t (List.mem_cons_of_mem u ht)

theorem isGap_of_isWhite {t : Tree} (h : t.isWhite = true) : isGap t = true := by
  have hwhite : t.token.isWhitespace = true := h
  rw [isGap, hwhite, Bool.true_or]

theorem tidy_trim (ts : List Tree) : tidy (trim ts) = tidy ts := by
  obtain ⟨before, after, hsplit, hbefore, hafter, -⟩ := exists_trim ts
  have hwhole : tidy ts = tidy (before ++ (trim ts ++ after)) := by
    rw [← List.append_assoc, ← hsplit]
  rw [hwhole, tidy_gaps_append fun t ht => isGap_of_isWhite (hbefore t ht),
    ← tidyAfter_false false (trim ts ++ after),
    tidyAfter_append_gaps fun t ht => isGap_of_isWhite (hafter t ht), tidyAfter_false]

/-- A component at the end stays there. -/
theorem getLast?_tidyAfter {t : Tree} {ts : List Tree} (h : isGap t = false) (started gap : Bool) :
    (tidyAfter started gap (ts ++ [t])).getLast? = some t := by
  induction ts generalizing started gap with
  | nil =>
    rw [List.nil_append, tidyAfter_component h, tidyAfter, List.getLast?_concat]
  | cons u ts ih =>
    rw [List.cons_append]
    cases hu : isGap u with
    | true =>
      obtain ⟨gap', hnext⟩ := tidyAfter_gap_cons hu started gap (ts ++ [t])
      rw [hnext, ih]
    | false =>
      rw [tidyAfter_component hu, List.getLast?_append, List.getLast?_cons, ih]
      rfl

theorem mem_rawOf {c : Char} {ts : List Tree} : c ∈ rawOf ts ↔ ∃ t ∈ ts, c ∈ t.raw := by
  induction ts with
  | nil => simp
  | cons t ts ih => simp [ih]

/-! ## Seams -/

def isComment (t : Tree) : Bool := t.token.isComment

def lastLexeme? (t : Tree) : Option Lexeme := t.lexemes.getLast?

/-- The last token of the tree ends of itself, whatever follows. -/
def endsItself (t : Tree) : Bool := t.lastLexeme?.any fun l => (markChar l.token).isSome

/-- The tree begins with a character that no token before it goes on with. -/
def beginsApart (t : Tree) : Bool := t.raw.head?.any isBarrier

/-- The last token of the tree does not take a space after it into itself, as an escape does that
has fewer than six digits. -/
def leavesSpace (t : Tree) : Bool :=
  t.lastLexeme?.all fun l => Css.lexemes (l.raw ++ [' ']) == [l, ⟨.whitespace " ", [' ']⟩]

/-- The tree does not run together with what follows it when comments between them are dropped. -/
def apart (t : Tree) : List Tree → Bool
  | [] => true
  | u :: us =>
    if u.isComment then apart t us
    else if u.isWhite then t.leavesSpace
    else t.endsItself || u.beginsApart

/-- A tree keeps its tokens next to what tidying puts after it. Only a comment that is dropped can
harm it, or the line break after a backslash that is no escape. -/
def keepsTokens (t : Tree) (ts : List Tree) : Bool :=
  t.token != .delim '\\' && (!ts.head?.any isComment || t.apart ts)

/-- All trees but white space and comments keep their tokens when the trees are tidied. -/
def seamless : List Tree → Bool
  | [] => true
  | t :: ts => (isGap t || t.keepsTokens ts) && seamless ts

mutual

/-- The trees are seamless, and so are those in every block among them. -/
def seamlessThroughout : List Tree → Bool
  | [] => true
  | t :: ts => (isGap t || t.keepsTokens ts) && seamlessInside t && seamlessThroughout ts

/-- The trees in a block are seamless, and so are those in every block further inside. -/
def seamlessInside : Tree → Bool
  | leaf _ => true
  | block _ body _ => seamlessThroughout body

end

theorem seamless_of_throughout {ts : List Tree} (h : seamlessThroughout ts = true) :
    seamless ts = true := by
  induction ts with
  | nil => rfl
  | cons t ts ih =>
    rw [seamlessThroughout, Bool.and_eq_true, Bool.and_eq_true] at h
    rw [seamless, Bool.and_eq_true]
    exact ⟨h.1.1, ih h.2⟩

/-- Nothing is asked of neighbours that no comment parts. -/
theorem seamless_tidyAfter {started gap : Bool} {ts : List Tree} (h : seamless ts = true) :
    seamless (tidyAfter started gap ts) = true := by
  induction ts generalizing started gap with
  | nil => rfl
  | cons t ts ih =>
    rw [seamless, Bool.and_eq_true] at h
    cases hgap : isGap t with
    | true =>
      obtain ⟨gap', hnext⟩ := tidyAfter_gap_cons hgap started gap ts
      rw [hnext]
      exact ih h.2
    | false =>
      have hkeeps : t.keepsTokens (tidyAfter true false ts) = true := by
        rw [hgap, Bool.false_or, keepsTokens, Bool.and_eq_true] at h
        rw [keepsTokens, h.1.1, Bool.true_and, Bool.or_eq_true]
        refine .inl ?_
        cases hnext : tidyAfter true false ts with
        | nil => rfl
        | cons u us =>
          have hu : u ∈ tidyAfter true false ts := by simp [hnext]
          rcases mem_tidyAfter hu with rfl | ⟨-, hu⟩
          · rfl
          · rw [isGap, Bool.or_eq_false_iff] at hu
            simp [isComment, hu.2]
      have hrest : seamless (t :: tidyAfter true false ts) = true := by
        rw [seamless, hgap, Bool.false_or, hkeeps, ih h.2]
        rfl
      rw [tidyAfter_component hgap]
      split
      · rw [List.singleton_append, seamless, hrest]
        rfl
      · exact hrest

theorem seamless_tidy {ts : List Tree} (h : seamless ts = true) : seamless (tidy ts) = true := by
  rw [← tidyAfter_false false ts]
  exact seamless_tidyAfter h

end Tree

open StyleSieve.Css.Tree (tidy tidyAfter space rawOf lexemesOf Bracketed isGap)

section

variable {l : Lexeme} {ls : List Lexeme} {y y' : List Char}

theorem isBarrier_of_mark {token : Token} {d : Char} (h : markChar token = some d)
    (hopens : token.opens = none) : isBarrier d = true := by
  cases token with
  | closing b => cases b <;> cases h <;> decide
  | comma => cases h; decide
  | colon => cases h; decide
  | semicolon => cases h; decide
  | opening b => simp [Token.opens] at hopens
  | _ => cases h

theorem isSpace_of_isBarrier {c : Char} (h : isBarrier c = true) : isSpace c = false := by
  simp only [isBarrier, Bool.and_eq_true, Bool.not_eq_true'] at h
  exact h.1.2

theorem isNewline_of_isBarrier {c : Char} (h : isBarrier c = true) : isNewline c = false :=
  eq_false_of_ne_true fun hnewline =>
    Bool.false_ne_true ((isSpace_of_isBarrier h).symm.trans (isSpace_of_isNewline hnewline))

/-- Nothing before a mark depends on what comes after it. -/
theorem Reads.exchange_after_mark {d : Char} (hd : isBarrier d = true) (h : Reads ls (d :: y)) :
    Reads ls (d :: y') := by
  have hspace := isSpace_of_isBarrier hd
  have hnewline := isNewline_of_isBarrier hd
  have hsame : SameHead (d :: y) (d :: y') := ⟨d, y, y', rfl, rfl, hspace⟩
  have hy : Exchange (d :: y) (d :: y') :=
    ⟨stops_cons.2 (.inl hd), stops_cons.2 (.inl hd), hnewline⟩
  refine h.exchange hy (fun l hl => ?_) (by simp [hnewline]) (.inl hsame)
  obtain ⟨before, hbefore⟩ := List.getLast?_eq_some_iff.1 hl
  rw [hbefore, reads_append_iff] at h
  exact h.2.exchange_singleton hy ⟨by simp, by simp [hspace], by simp [hnewline], by simp [hnewline],
    .inr hsame⟩

/-- Lexemes that end with a mark are read whatever follows. -/
theorem Reads.exchange_of_mark {d : Char} (h : Reads (ls ++ [l]) y) (hd : markChar l.token = some d)
    (hopens : l.token.opens = none) : Reads (ls ++ [l]) y' := by
  obtain ⟨hls, hl⟩ := reads_append_iff.1 h
  have hraw := hl.raw_of_mark hd
  rw [List.flatMap_singleton, hraw, List.singleton_append] at hls
  refine reads_append_iff.2 ⟨?_, ?_⟩
  · rw [List.flatMap_singleton, hraw, List.singleton_append]
    exact hls.exchange_after_mark (isBarrier_of_mark hd hopens)
  · have hmark := reads_mark hd y'
    rwa [← hraw] at hmark

end

/-! ## Tidied trees are read again -/

section

variable {l : Lexeme} {t : Tree} {ts us : List Tree} {y : List Char}

theorem lexemes_ne_nil (t : Tree) : t.lexemes ≠ [] := by
  cases t <;> simp [Tree.lexemes]

theorem getLast?_lexemesOf_append_singleton (ts : List Tree) (t : Tree) :
    (lexemesOf (ts ++ [t])).getLast? = t.lastLexeme? := by
  rw [Tree.lexemesOf_append, Tree.lexemesOf_cons, Tree.lexemesOf_nil, List.append_nil,
    List.getLast?_append, Tree.lastLexeme?, List.getLast?_eq_some_getLast (lexemes_ne_nil t),
    Option.some_or]

theorem reads_lexemesOf_append_iff :
    Reads (lexemesOf (ts ++ us)) y ↔
      Reads (lexemesOf ts) (rawOf us ++ y) ∧ Reads (lexemesOf us) y := by
  rw [Tree.lexemesOf_append, reads_append_iff]
  rfl

/-- The last lexeme of a tree that leaves nothing open and is no white space. -/
structure Solid (l : Lexeme) : Prop where
  opens : l.token.opens = none
  white : l.token.isWhitespace = false
  string : ∀ s, l.token ≠ .badString s

theorem Solid.function (h : Solid l) (s : String) : l.token ≠ .function s := by
  intro hs
  have hopens := h.opens
  simp [hs, Token.opens] at hopens

theorem exists_solid {within : Option Bracket} (hbracketed : Bracketed within false [t])
    (hwhite : t.isWhite = false) (hsound : Phrase.Sound [t]) :
    ∃ l, t.lastLexeme? = some l ∧ Solid l ∧ (l.token = t.token ∨ (markChar l.token).isSome) := by
  cases hbracketed with
  | @leaf _ _ l _ opens _ _ =>
    exact ⟨l, rfl, ⟨opens, hwhite, fun s => (hsound _ List.mem_cons_self s).1⟩, .inl rfl⟩
  | @block _ _ head close b body _ opens closes _ _ =>
    have hclose := Token.eq_closing closes
    refine ⟨close, ?_, ⟨by rw [hclose]; rfl, by rw [hclose]; rfl, by simp [hclose]⟩, .inr ?_⟩
    · rw [Tree.lastLexeme?, Tree.lexemes, Option.toList_some, ← List.cons_append,
        List.getLast?_concat]
    · rw [hclose]
      cases b <;> rfl

theorem exists_lexemes_eq_cons (t : Tree) : ∃ l ls, t.lexemes = l :: ls ∧ l.token = t.token := by
  cases t with
  | leaf l => exact ⟨l, [], rfl, rfl⟩
  | block head body close => exact ⟨head, _, rfl, rfl⟩

/-- The first character of a tree tells whether it is white space, and of a comment it is a slash. -/
theorem exists_raw_eq_cons (h : Reads (lexemesOf (t :: ts)) y) :
    ∃ c u, t.raw = c :: u ∧ isSpace c = t.isWhite ∧ (t.isComment = true → c = '/') := by
  obtain ⟨l, ls, hlexemes, htoken⟩ := exists_lexemes_eq_cons t
  rw [Tree.lexemesOf_cons, hlexemes, List.cons_append, reads_cons_iff] at h
  obtain ⟨c, u, hraw⟩ := List.exists_cons_of_ne_nil h.1.raw_ne_nil
  refine ⟨c, u ++ ls.flatMap Lexeme.raw, ?_, ?_, fun hcomment => ?_⟩
  · rw [Tree.raw, hlexemes, List.flatMap_cons, hraw, List.cons_append]
  · rw [Tree.isWhite, ← htoken, h.1.isWhitespace_eq hraw]
  · obtain ⟨v, hslash⟩ := h.1.slash_of_isComment (by rw [htoken]; exact hcomment)
    exact (List.cons.inj (hraw.symm.trans hslash)).1

/-- A tree that begins with a mark begins with its character. -/
theorem exists_raw_of_mark (h : Reads (lexemesOf (t :: ts)) y) {d : Char}
    (hd : markChar t.token = some d) : ∃ u, t.raw = d :: u := by
  obtain ⟨l, ls, hlexemes, htoken⟩ := exists_lexemes_eq_cons t
  rw [Tree.lexemesOf_cons, hlexemes, List.cons_append, reads_cons_iff] at h
  refine ⟨ls.flatMap Lexeme.raw, ?_⟩
  rw [Tree.raw, hlexemes, List.flatMap_cons, h.1.raw_of_mark (htoken ▸ hd), List.singleton_append]

/-- White space in front of what is left of some trees, unless nothing is left. -/
theorem tidyAfter_gap (ts : List Tree) :
    tidyAfter true true ts = [] ∨ ∃ us, tidyAfter true true ts = space :: us := by
  induction ts with
  | nil => exact .inl rfl
  | cons t ts ih =>
    rw [tidyAfter]
    split
    · exact ih
    · split
      · exact ih
      · exact .inr ⟨_, rfl⟩

theorem tidyAfter_apart (h : t.apart ts = true) :
    tidyAfter true false ts = [] ∨
      (∃ us, tidyAfter true false ts = space :: us ∧ t.leavesSpace = true) ∨
      ∃ u us, tidyAfter true false ts = u :: us ∧ (t.endsItself || u.beginsApart) = true := by
  induction ts with
  | nil => exact .inl rfl
  | cons u ts ih =>
    rw [Tree.apart] at h
    rw [tidyAfter]
    split at h
    · next hcomment =>
      rw [Tree.isComment] at hcomment
      rw [if_pos hcomment]
      exact ih h
    · next hcomment =>
      rw [Tree.isComment] at hcomment
      rw [if_neg hcomment]
      split at h
      · next hwhite =>
        rw [if_pos hwhite]
        rcases tidyAfter_gap ts with hnil | ⟨us, hus⟩
        · exact .inl hnil
        · exact .inr (.inl ⟨us, hus, h⟩)
      · next hwhite =>
        rw [if_neg hwhite]
        exact .inr (.inr ⟨u, _, rfl, h⟩)

/-- What tidying puts after a tree that white space or a comment follows. -/
theorem tidyAfter_of_keepsTokens (hkeeps : t.keepsTokens (u :: us) = true) (hu : isGap u = true) :
    tidyAfter true false (u :: us) = [] ∨
      (∃ vs, tidyAfter true false (u :: us) = space :: vs ∧
        (u.isWhite = true ∨ t.leavesSpace = true)) ∨
      ∃ v vs, tidyAfter true false (u :: us) = v :: vs ∧
        (t.endsItself || v.beginsApart) = true := by
  simp only [Tree.keepsTokens, Bool.and_eq_true, List.head?_cons, Option.any_some] at hkeeps
  cases hcomment : u.isComment with
  | true =>
    have hapart : t.apart (u :: us) = true := by simpa [hcomment] using hkeeps.2
    rcases tidyAfter_apart hapart with h | ⟨vs, h, hspace⟩ | h
    · exact .inl h
    · exact .inr (.inl ⟨vs, h, .inr hspace⟩)
    · exact .inr (.inr h)
  | false =>
    have hwhite : u.isWhite = true := by
      rw [Tree.isComment] at hcomment
      rw [isGap, hcomment, Bool.or_false] at hu
      exact hu
    have hnext : tidyAfter true false (u :: us) = tidyAfter true true us := by
      rw [Tree.isComment] at hcomment
      rw [tidyAfter, if_neg (by simp [hcomment]), if_pos hwhite]
    rw [hnext]
    rcases tidyAfter_gap us with h | ⟨vs, h⟩
    · exact .inl h
    · exact .inr (.inl ⟨vs, h, .inl hwhite⟩)

theorem exists_of_any_head? {α : Type} {p : α → Bool} {xs : List α}
    (h : xs.head?.any p = true) : ∃ x rest, xs = x :: rest ∧ p x = true := by
  cases xs with
  | nil => simp at h
  | cons x rest => exact ⟨x, rest, rfl, by simpa using h⟩

/-- A character of white space is read on its own where no white space follows. -/
theorem reads_white {c : Char} (hc : isSpace c = true) (h : startsWith isSpace y = false) :
    Reads [⟨.whitespace (String.ofList [c]), [c]⟩] y := by
  have hnone : y.takeWhile isSpace = [] := by cases y <;> simp_all
  refine reads_of_readToken (u := []) rfl ?_
  rw [List.nil_append, readToken, if_pos hc, hnone]

theorem reads_space (h : startsWith isSpace y = false) : Reads (lexemesOf [space]) y :=
  @reads_white y ' ' rfl h

theorem lexemes_space : lexemes [' '] = [⟨.whitespace " ", [' ']⟩] := by
  have h := reads_space (y := []) rfl
  rwa [Reads, lexemes_nil] at h

/-- Trees of which the last is no white space and leaves nothing open are read again before another
text, if the last lexeme is, and that is so before no more space than there was. -/
theorem Reads.exchange_closed {within : Option Bracket} {run : List Tree} {y y' : List Char}
    (h : Reads (lexemesOf (run ++ [t])) y) (hclosed : Bracketed within false [t])
    (hwhite : t.isWhite = false) (hsound : Phrase.Sound [t]) (hback : t.token ≠ .delim '\\')
    (hy : Exchange y y')
    (hlast : (∀ l ∈ t.lastLexeme?, Reads [l] y') ∨
      y ≠ [] ∧ (startsWith isSpace y' = true → startsWith isSpace y = true)) :
    Reads (lexemesOf (run ++ [t])) y' := by
  obtain ⟨l, hl, hsolid, htoken⟩ := exists_solid hclosed hwhite hsound
  have hback' : l.token ≠ .delim '\\' := by
    rcases htoken with htoken | hmark
    · rwa [htoken]
    · intro hdelim
      simp [hdelim, markChar] at hmark
  obtain ⟨before, hbefore⟩ :=
    List.getLast?_eq_some_iff.1 ((getLast?_lexemesOf_append_singleton run t).trans hl)
  rw [hbefore] at h ⊢
  have hreads := (reads_append_iff.1 h).2
  have hreads' : Reads [l] y' := by
    rcases hlast with hlast | ⟨hne, hspace⟩
    · exact hlast l hl
    · exact hreads.exchange_singleton hy ⟨fun hnil => absurd hnil hne, hspace, fun _ => hback',
        fun _ => hsolid.string, .inl hsolid.function⟩
  refine h.exchange hy ?_ ?_ (.inr ?_) <;> rw [List.getLast?_concat]
  · rintro _ ⟨⟩
    exact hreads'
  · rintro _ _ ⟨⟩
    exact hback'
  · rintro _ ⟨⟩
    obtain ⟨c, u, hraw⟩ := List.exists_cons_of_ne_nil hreads.raw_ne_nil
    refine ⟨c, by rw [hraw]; exact List.mem_cons_self, ?_⟩
    rw [← hreads.isWhitespace_eq hraw, hsolid.white]

/-- A tree that leaves a space after it alone is read before any text that begins with one. -/
theorem reads_of_leavesSpace {within : Option Bracket} (hclosed : Bracketed within false [t])
    (hwhite : t.isWhite = false) (hsound : Phrase.Sound [t]) (hleaves : t.leavesSpace = true)
    (z : List Char) : ∀ l ∈ t.lastLexeme?, Reads [l] (' ' :: z) := by
  intro l hl
  obtain ⟨l', hl', hsolid, htoken⟩ := exists_solid hclosed hwhite hsound
  obtain rfl : l' = l := Option.some.inj (hl'.symm.trans hl)
  have hspace : Reads [l'] [' '] := by
    rw [Tree.leavesSpace, hl', Option.all_some, beq_iff_eq] at hleaves
    rw [Reads, List.flatMap_singleton, hleaves, lexemes_space]
    rfl
  exact hspace.exchange_singleton ⟨stops_cons.2 (.inr rfl), stops_cons.2 (.inr rfl), rfl⟩
    ⟨by simp, fun _ => rfl, by simp [isNewline], by simp [isNewline], .inl hsolid.function⟩

theorem not_isNewline_of_not_isSpace {z : List Char} (h : startsWith isSpace z = false) :
    startsWith isNewline z = false := by
  cases z with
  | nil => rfl
  | cons d z =>
    refine eq_false_of_ne_true fun hnewline => ?_
    rw [startsWith_cons] at h hnewline
    simp [isSpace_of_isNewline hnewline] at h

/-- White space and comments stop what stands before them. -/
theorem stops_of_gap {y : List Char} (h : Reads (lexemesOf (t :: ts)) y) (hgap : isGap t = true) :
    Stops (rawOf (t :: ts) ++ y) ∧ rawOf (t :: ts) ++ y ≠ [] ∧
      startsWith isSpace (rawOf (t :: ts) ++ y) = t.isWhite := by
  obtain ⟨d, v, hraw, hspace, hcomment⟩ := exists_raw_eq_cons h
  have hhead : rawOf (t :: ts) ++ y = d :: (v ++ rawOf ts ++ y) := by
    rw [Tree.rawOf_cons, hraw]
    simp
  rw [hhead]
  refine ⟨stops_cons.2 ?_, List.cons_ne_nil _ _, hspace⟩
  simp only [isGap, Bool.or_eq_true] at hgap
  rcases hgap with hwhite | hslash
  · exact .inr (hspace.trans hwhite)
  · rw [hcomment hslash]
    exact .inl (by decide)

/-- Trees without white space and comments are read again before what tidying puts after them. -/
theorem Reads.exchange_tidied {within : Option Bracket} {run rest : List Tree} {y z : List Char}
    (h : Reads (lexemesOf (run ++ t :: rest)) y)
    (hclosed : Bracketed within false [t]) (hgap : isGap t = false)
    (hsound : Phrase.Sound [t]) (hkeeps : t.keepsTokens rest = true)
    (hrest : ∀ u ∈ rest.head?, isGap u = true)
    (hy : Stops y) (hz : Stops z) (hzspace : startsWith isSpace z = false)
    (hend : rest = [] → y = [] → ∀ l ∈ t.lastLexeme?, Reads [l] z) :
    Reads (lexemesOf (run ++ [t])) (rawOf (tidyAfter true false rest) ++ z) := by
  have hwhite : t.isWhite = false := by
    simp only [isGap, Bool.or_eq_false_iff] at hgap
    exact hgap.1
  have hback : t.token ≠ .delim '\\' := by
    simp only [Tree.keepsTokens, Bool.and_eq_true, bne_iff_ne] at hkeeps
    exact hkeeps.1
  have hznewline := not_isNewline_of_not_isSpace hzspace
  have hznone : ∀ cs, startsWith isSpace z = true → startsWith isSpace cs = true :=
    fun cs hspace => absurd (hzspace.symm.trans hspace) (by simp)
  rw [List.append_cons, reads_lexemesOf_append_iff] at h
  obtain ⟨hrun, hreads⟩ := h
  cases rest with
  | nil =>
    rw [Tree.rawOf_nil, List.nil_append] at hrun
    refine hrun.exchange_closed hclosed hwhite hsound hback ⟨hy, hz, hznewline⟩ ?_
    by_cases hnil : y = []
    · exact .inl (hend rfl hnil)
    · exact .inr ⟨hnil, hznone _⟩
  | cons g rest =>
    have hg := hrest g rfl
    obtain ⟨hstops, hne, hspaces⟩ := stops_of_gap hreads hg
    rcases tidyAfter_of_keepsTokens hkeeps hg with hnil | ⟨vs, hvs, hspace⟩ | ⟨w, vs, hvs, hapart⟩
    · -- nothing is left behind the tree
      rw [hnil, Tree.rawOf_nil, List.nil_append]
      exact hrun.exchange_closed hclosed hwhite hsound hback ⟨hstops, hz, hznewline⟩
        (.inr ⟨hne, hznone _⟩)
    · -- a space is left, for white space that stood there or further behind
      rw [hvs, Tree.rawOf_cons]
      refine hrun.exchange_closed hclosed hwhite hsound hback
        ⟨hstops, stops_cons.2 (.inr rfl), rfl⟩ ?_
      rcases hspace with hwhite' | hleaves
      · exact .inr ⟨hne, fun _ => hspaces.trans hwhite'⟩
      · exact .inl (reads_of_leavesSpace hclosed hwhite hsound hleaves _)
    · -- the next component moves up
      obtain ⟨l, hlast, hsolid, -⟩ := exists_solid hclosed hwhite hsound
      cases hitself : t.endsItself with
      | true =>
        rw [Tree.endsItself, hlast, Option.any_some, Option.isSome_iff_exists] at hitself
        obtain ⟨d, hmark⟩ := hitself
        obtain ⟨before, hbefore⟩ :=
          List.getLast?_eq_some_iff.1 ((getLast?_lexemesOf_append_singleton run t).trans hlast)
        rw [hbefore] at hrun ⊢
        exact hrun.exchange_of_mark hmark hsolid.opens
      | false =>
        rw [hitself, Bool.false_or, Tree.beginsApart] at hapart
        obtain ⟨e, x, hwraw, he⟩ := exists_of_any_head? hapart
        have hbegins : rawOf (w :: vs) ++ z = e :: (x ++ rawOf vs ++ z) := by
          rw [Tree.rawOf_cons, hwraw]
          simp
        rw [hvs, hbegins]
        refine hrun.exchange_closed hclosed hwhite hsound hback
          ⟨hstops, stops_cons.2 (.inl he), isNewline_of_isBarrier he⟩ (.inr ⟨hne, fun hspace => ?_⟩)
        rw [startsWith_cons, isSpace_of_isBarrier he] at hspace
        contradiction

theorem tidyAfter_append {run : List Tree} (hrun : ∀ u ∈ run, isGap u = false) (rest : List Tree) :
    tidyAfter true false (run ++ rest) = run ++ tidyAfter true false rest := by
  induction run with
  | nil => rfl
  | cons u run ih =>
    have hu := hrun u List.mem_cons_self
    simp only [isGap, Bool.or_eq_false_iff] at hu
    have hwhite : u.isWhite = false := hu.1
    rw [List.cons_append, tidyAfter, if_neg (by simp [hu.2]), if_neg (by simp [hwhite]),
      if_neg (by simp), ih fun v hv => hrun v (List.mem_cons_of_mem u hv), List.cons_append]

theorem opens_of_isGap {t : Tree} (h : isGap t = true) : t.token.opens = none := by
  unfold isGap at h
  cases htoken : t.token <;> simp_all [Token.isWhitespace, Token.isComment, Token.opens]

/-- A maximal sequence of trees without white space and comments in between, at the head of some
trees. -/
theorem exists_run (h : isGap t = false) (ts : List Tree) :
    ∃ run u rest, t :: ts = run ++ u :: rest ∧ (∀ v ∈ run ++ [u], isGap v = false) ∧
      (∀ v ∈ rest.head?, isGap v = true) ∧ rest.length ≤ ts.length := by
  induction ts generalizing t with
  | nil => exact ⟨[], t, [], rfl, by simpa using h, by simp, Nat.le_refl _⟩
  | cons u ts ih =>
    cases hu : isGap u with
    | true => exact ⟨[], t, u :: ts, rfl, by simpa using h, by simpa using hu, Nat.le_refl _⟩
    | false =>
      obtain ⟨run, v, rest, heq, hrun, hrest, hlength⟩ := ih hu
      refine ⟨t :: run, v, rest, by rw [heq]; rfl, ?_, hrest, Nat.le_succ_of_le hlength⟩
      rw [List.cons_append]
      exact List.forall_mem_cons.2 ⟨h, hrun⟩

theorem seamless_append {ts us : List Tree} (h : Tree.seamless (ts ++ us) = true) :
    Tree.seamless us = true := by
  induction ts with
  | nil => exact h
  | cons t ts ih =>
    rw [List.cons_append, Tree.seamless, Bool.and_eq_true] at h
    exact ih h.2

theorem ne_backslash_of_seamless (h : Tree.seamless ts = true) :
    ∀ t ∈ ts, t.token ≠ .delim '\\' := by
  intro t ht hback
  obtain ⟨before, after, rfl⟩ := List.append_of_mem ht
  have hseam := seamless_append h
  simp [Tree.seamless, Tree.keepsTokens, isGap, hback, Token.isWhitespace, Token.isComment] at hseam

/-- Nothing follows the last of the first trees that could harm it. -/
theorem seamless_left {ts us : List Tree} (h : Tree.seamless (ts ++ us) = true) :
    Tree.seamless ts = true := by
  have hapart : ∀ {t : Tree} {ts : List Tree}, t.apart (ts ++ us) = true → t.apart ts = true := by
    intro t ts hall
    induction ts with
    | nil => rfl
    | cons u ts ih =>
      rw [List.cons_append, Tree.apart] at hall
      rw [Tree.apart]
      split at hall
      · next hcomment =>
        rw [if_pos hcomment]
        exact ih hall
      · next hcomment => rwa [if_neg hcomment]
  induction ts with
  | nil => rfl
  | cons t ts ih =>
    rw [List.cons_append, Tree.seamless, Bool.and_eq_true, Bool.or_eq_true, Tree.keepsTokens,
      Bool.and_eq_true, Bool.or_eq_true] at h
    rw [Tree.seamless, Bool.and_eq_true, Bool.or_eq_true, Tree.keepsTokens, Bool.and_eq_true,
      Bool.or_eq_true]
    refine ⟨h.1.imp_right fun ⟨hback, hnext⟩ => ⟨hback, ?_⟩, ih h.2⟩
    cases ts with
    | nil => exact .inl rfl
    | cons u ts => exact hnext.imp_right hapart

/-- Trees before `y` that are going to be tidied and put before `z`. -/
structure Tidied (within : Option Bracket) (ended : Bool) (y z : List Char) (vs : List Tree) :
    Prop where
  reads : Reads (lexemesOf vs) y
  bracketed : Bracketed within ended vs
  sound : Phrase.Sound vs
  seamless : Tree.seamless vs = true
  /-- What is left open at the end of a text stays there. -/
  ended : ended = true → y = [] ∧ z = []
  /-- Where the text ended, the last lexeme does not go on. -/
  last : y = [] → ∀ l ∈ (lexemesOf vs).getLast?, Reads [l] z

theorem Tidied.right {within : Option Bracket} {ended : Bool} {z : List Char}
    (h : Tidied within ended y z (us ++ ts)) : Tidied within ended y z ts where
  reads := (reads_lexemesOf_append_iff.1 h.reads).2
  bracketed := h.bracketed.right
  sound := fun t ht => h.sound t (List.mem_append_right us ht)
  seamless := seamless_append h.seamless
  ended := h.ended
  last := fun hy l hl => h.last hy l (by
    rw [Tree.lexemesOf_append, List.getLast?_append, Option.mem_def.1 hl, Option.some_or]
    rfl)

/-- The trees up to white space or a comment are read again before what tidying puts after them. -/
theorem Tidied.reads_run {within : Option Bracket} {ended : Bool} {z : List Char}
    {run rest : List Tree} (h : Tidied within ended y z (run ++ t :: rest)) (hy : Stops y)
    (hz : Stops z) (hzspace : startsWith isSpace z = false) (hgap : isGap t = false)
    (hrest : ∀ u ∈ rest.head?, isGap u = true) :
    Reads (lexemesOf (run ++ [t])) (rawOf (tidyAfter true false rest) ++ z) := by
  have hclosed : rest = [] ∧ y = [] ∧ z = [] ∨ Bracketed within false [t] := by
    have hright : Bracketed within ended ([t] ++ rest) := h.bracketed.right
    cases rest with
    | cons u rest => exact .inr (hright.left (List.cons_ne_nil u rest))
    | nil =>
      cases ended with
      | true => exact .inl ⟨rfl, h.ended rfl⟩
      | false => exact .inr hright
  rcases hclosed with ⟨rfl, rfl, rfl⟩ | hclosed
  · exact h.reads
  · have hseam := seamless_append h.seamless
    rw [Tree.seamless, hgap, Bool.false_or, Bool.and_eq_true] at hseam
    refine h.reads.exchange_tidied hclosed hgap ?_ hseam.1 hrest hy hz hzspace ?_
    · intro u hu
      obtain rfl := List.mem_singleton.1 hu
      exact h.sound u (List.mem_append_right run List.mem_cons_self)
    · rintro rfl hnil l hl
      exact h.last hnil l (by rwa [getLast?_lexemesOf_append_singleton])

/-- Tidied trees are read again from their text, whatever barrier follows them. -/
theorem Tidied.reads_tidyAfter {within : Option Bracket} {ended : Bool} {z : List Char}
    {vs : List Tree} (h : Tidied within ended y z vs) (hy : Stops y) (hz : Stops z)
    (hzspace : startsWith isSpace z = false) (started gap : Bool) :
    Reads (lexemesOf (tidyAfter started gap vs)) z := by
  induction hn : vs.length using Nat.strongRecOn generalizing vs started gap with
  | ind n ih =>
    cases vs with
    | nil => exact reads_nil z
    | cons t ts =>
      cases hgap : isGap t with
      | true =>
        obtain ⟨gap', hnext⟩ := Tree.tidyAfter_gap_cons hgap started gap ts
        rw [hnext]
        have htail : Tidied within ended y z ([t] ++ ts) := h
        exact ih ts.length (by simp [← hn]) htail.right _ _ rfl
      | false =>
        obtain ⟨run, u, rest, heq, hrun, hrest, hlength⟩ := exists_run hgap ts
        have hu : isGap u = false := hrun u (by simp)
        -- what stands before the first gap, and the tidied rest
        have hbefore := (heq ▸ h).reads_run hy hz hzspace hu hrest
        have htail : Tidied within ended y z ((run ++ [u]) ++ rest) := by
          rw [List.append_assoc]
          exact heq ▸ h
        have hafter := ih rest.length (by simp [← hn]; omega) htail.right true false rfl
        have hall : Reads (lexemesOf (t :: tidyAfter true false ts)) z := by
          have htidy : t :: tidyAfter true false ts = (run ++ [u]) ++ tidyAfter true false rest := by
            rw [← tidyAfter_append hrun, List.append_assoc, List.singleton_append, ← heq,
              Tree.tidyAfter_component hgap]
            rfl
          rw [htidy]
          exact reads_lexemesOf_append_iff.2 ⟨hbefore, hafter⟩
        rw [Tree.tidyAfter_component hgap]
        split
        · obtain ⟨c, w, hraw, hspace, -⟩ := exists_raw_eq_cons hall
          refine reads_lexemesOf_append_iff.2 ⟨reads_space ?_, hall⟩
          simp only [isGap, Bool.or_eq_false_iff] at hgap
          rw [Tree.rawOf_cons, hraw]
          exact hspace.trans hgap.1
        · exact hall

theorem bracketed_space {within : Option Bracket} {ended : Bool} (h : Bracketed within ended ts) :
    Bracketed within ended (space :: ts) :=
  .leaf rfl (by simp [Token.closes]) h

/-- Tidying drops no bracket and puts none in. -/
theorem bracketed_tidyAfter {within : Option Bracket} {ended : Bool} (started gap : Bool)
    (h : Bracketed within ended ts) : Bracketed within ended (tidyAfter started gap ts) := by
  induction h generalizing started gap with
  | nil => exact .nil
  | leaf opens closes _ ih =>
    rw [tidyAfter]
    split
    · exact ih _ _
    split
    · exact ih _ _
    split
    · exact bracketed_space (.leaf opens closes (ih _ _))
    · exact .leaf opens closes (ih _ _)
  | block opens closes inside _ _ ih =>
    rw [tidyAfter]
    split
    · exact ih _ _
    split
    · exact ih _ _
    split
    · exact bracketed_space (.block opens closes inside (ih _ _))
    · exact .block opens closes inside (ih _ _)
  | unclosed opens inside =>
    rw [tidyAfter]
    split
    · exact .nil
    split
    · exact .nil
    split
    · exact bracketed_space (.unclosed opens inside)
    · exact .unclosed opens inside

/-- The text of tidied trees has just these trees. -/
theorem Tidied.ofText_rawOf {within : Option Bracket} {ended : Bool} {vs : List Tree}
    (h : Tidied within ended y [] vs) (hy : Stops y) :
    Tree.ofText (rawOf (tidy vs)) = tidy vs := by
  have hreads := h.reads_tidyAfter hy stops_nil rfl false false
  have hbrackets := (bracketed_tidyAfter false false h.bracketed).outside
  rw [Tree.tidyAfter_false] at hreads hbrackets
  rw [Reads, List.append_nil, lexemes_nil, List.append_nil] at hreads
  refine Tree.ofText_eq hreads ?_
  cases ended with
  | false => exact hbrackets.ends
  | true => exact hbrackets

end

end StyleSieve.Css
