import StyleSieve.Proofs.Css.Origin
import StyleSieve.Proofs.Selector.Grammar
import StyleSieve.Proofs.Text.Words

/-!
# Selectors as written

A selector of a rule is handed on tidied: without comments, and with one space for all white space
inside. Cut out of the stylesheet and trimmed, it has its comments and all its white space. Both are
read with the same chain (`parse_strip`), provided that the tidied text keeps the tokens of the
selector and that only white space is trimmed.
-/

namespace StyleSieve.Css

open StyleSieve.Css.Tree (isGap rawOf lexemesOf tidy tidyAfter space Bracketed)

section

variable {w : Option Bracket} {ended : Bool} {y : List Char} {t : Tree} {ts us vs : List Tree}

/-! ## What is trimmed -/

theorem Stands.isSpace_of_isWhite (h : Stands w ended y ts) (ht : t ∈ ts)
    (hwhite : t.isWhite = true) : ∀ c ∈ t.raw, isSpace c = true := by
  obtain ⟨l, rfl⟩ := h.bracketed.exists_leaf ht (opens_of_isGap (Tree.isGap_of_isWhite hwhite))
  obtain ⟨z, hreads⟩ := h.reads_of_mem ht
  intro c hc
  exact Reads.isSpace_of_isWhitespace hreads hwhite c (by simpa [Tree.raw, Tree.lexemes] using hc)

theorem isBlank_of_isSpace {c : Char} (h : isSpace c = true) : Text.isBlank c = true := by
  simp only [isSpace, isNewline, Bool.or_eq_true, beq_iff_eq] at h
  rcases h with (rfl | rfl) | (rfl | rfl) | rfl <;> decide

theorem getLast?_rawOf (h : ts.getLast? = some t) (hne : t.raw ≠ []) :
    (rawOf ts).getLast? = t.raw.getLast? := by
  obtain ⟨run, rfl⟩ := List.getLast?_eq_some_iff.1 h
  rw [Tree.rawOf_append, Tree.rawOf_cons, Tree.rawOf_nil, List.append_nil, List.getLast?_append,
    List.getLast?_eq_some_getLast hne, Option.some_or]

/-- Trees that begin with no white space begin with the slash of a comment, or with the text of what
tidying leaves. -/
theorem head?_rawOf_of_reads (h : Reads (lexemesOf ts) y)
    (hfirst : ∀ t ∈ ts.head?, t.isWhite = false) :
    (rawOf ts).head? = some '/' ∨ (rawOf ts).head? = (rawOf (tidy ts)).head? := by
  cases ts with
  | nil => exact .inr rfl
  | cons t ts =>
    obtain ⟨c, u, hraw, -, hcomment⟩ := exists_raw_eq_cons h
    have hwhite : t.token.isWhitespace = false := hfirst t rfl
    rw [Tree.rawOf_cons, hraw]
    cases hgap : isGap t with
    | true =>
      rw [isGap, hwhite, Bool.false_or] at hgap
      exact .inl (congrArg some (hcomment hgap))
    | false =>
      rw [← Tree.tidyAfter_false false, Tree.tidyAfter_component hgap, Bool.false_and,
        Tree.rawOf_append, Tree.rawOf_cons, hraw]
      exact .inr rfl

/-- Trees before a text that end with no white space end with the slash of a comment, or with the
text of what tidying leaves. -/
theorem Stands.getLast?_rawOf (h : Stands w false y ts) (hne : y ≠ [])
    (hlast : ∀ t ∈ ts.getLast?, t.isWhite = false) :
    (rawOf ts).getLast? = some '/' ∨ (rawOf ts).getLast? = (rawOf (tidy ts)).getLast? := by
  rcases List.eq_nil_or_concat ts with rfl | ⟨run, t, rfl⟩
  · exact .inr rfl
  rw [List.concat_eq_append] at h hlast ⊢
  have hreads := (reads_lexemesOf_append_iff.1 h.reads).2
  obtain ⟨c, u, hraw, -⟩ := exists_raw_eq_cons hreads
  have hne' : t.raw ≠ [] := by simp [hraw]
  have hwhite : t.token.isWhitespace = false := hlast t (by simp)
  rw [Css.getLast?_rawOf List.getLast?_concat hne']
  cases hgap : isGap t with
  | true =>
    obtain ⟨l, rfl⟩ := h.bracketed.exists_leaf (List.mem_append_right run List.mem_cons_self)
      (opens_of_isGap hgap)
    rw [isGap, hwhite, Bool.false_or] at hgap
    have hleaf : (Tree.leaf l).raw = l.raw := by simp [Tree.raw, Tree.lexemes]
    have hlexeme : Reads [l] y := by simpa [Tree.lexemes] using hreads
    rw [hleaf]
    exact .inl (hlexeme.getLast?_of_closed_comment hgap hne)
  | false =>
    rw [← Tree.tidyAfter_false false,
      Css.getLast?_rawOf (Tree.getLast?_tidyAfter hgap false false) hne']
    exact .inr rfl

/-- Only white space is trimmed from trees if what tidying leaves of them has no blanks at its
ends. -/
theorem Stands.strip_rawOf (h : Stands w false y ts) (hne : y ≠ [])
    (hends : Text.strip Text.isBlank (rawOf (tidy ts)) = rawOf (tidy ts)) :
    Text.strip Text.isBlank (rawOf ts) = rawOf (Tree.trim ts) := by
  obtain ⟨before, after, hsplit, hbefore, hafter, hlast⟩ := Tree.exists_trim ts
  have hfirst := Tree.not_isWhite_head_trim ts
  rw [← Tree.tidy_trim, Text.strip_eq_self_iff] at hends
  generalize Tree.trim ts = mid at hsplit hlast hfirst hends ⊢
  subst hsplit
  have hblank : ∀ us ⊆ before ++ mid ++ after, (∀ t ∈ us, t.isWhite = true) →
      ∀ c ∈ rawOf us, Text.isBlank c = true := by
    intro us hus hwhite c hc
    obtain ⟨t, ht, hc⟩ := Tree.mem_rawOf.1 hc
    exact isBlank_of_isSpace (h.isSpace_of_isWhite (hus ht) (hwhite t ht) c hc)
  rw [Tree.rawOf_append, Tree.rawOf_append,
    Text.strip_append (hblank before (by simp) hbefore) (hblank after (by simp) hafter),
    Text.strip_eq_self_iff]
  have hmid := h.middle hafter
  have hslash : ∀ c ∈ some '/', Text.isBlank c = false := by
    rintro _ ⟨⟩
    decide
  constructor
  · rcases head?_rawOf_of_reads hmid.reads hfirst with hhead | hhead
    · rwa [hhead]
    · rw [hhead]
      exact hends.1
  · rcases hmid.getLast?_rawOf (by simp [hne]) hlast with hend | hend
    · rwa [hend]
    · rw [hend]
      exact hends.2

/-- Trees without white space around them are read from their text again. -/
theorem Stands.ofText_trim (h : Stands w false y ts) (hne : y ≠ []) (hsound : Phrase.Sound ts)
    (hseam : Tree.seamless ts = true) : Tree.ofText (rawOf (Tree.trim ts)) = Tree.trim ts := by
  obtain ⟨before, after, hsplit, -⟩ := Tree.exists_trim ts
  have hbrackets := h.bracketed
  rw [hsplit] at hbrackets
  have hreads := h.exchange_trim hne hsound (fun t ht => ne_backslash_of_seamless hseam t ?_)
    stops_nil rfl
  · rw [Reads, List.append_nil, lexemes_nil, List.append_nil] at hreads
    exact Tree.ofText_eq hreads hbrackets.closed_left.right.outside.ends
  · rw [hsplit]
    exact List.mem_append_left _ (List.mem_append_right _ (List.mem_of_getLast? ht))

/-- Tidied trees are read from their text again. -/
theorem Stands.ofText_tidy (h : Stands w false y ts) (hne : y ≠ []) (hsound : Phrase.Sound ts)
    (hseam : Tree.seamless ts = true) : Tree.ofText (rawOf (tidy ts)) = tidy ts :=
  Tidied.ofText_rawOf ⟨h.reads, h.bracketed, hsound, hseam, by simp, fun hy => absurd hy hne⟩
    h.stops

end

end StyleSieve.Css

namespace StyleSieve.Selector

open Css
open Css.Tree (rawOf tidy tidyAfter space)

/-! ## White space between parts -/

theorem IsParts.append {ts us : List Tree} {ps qs : List Part} (h : IsParts ts ps)
    (h' : IsParts us qs) : IsParts (ts ++ us) (ps ++ qs) := by
  induction h with
  | nil => exact h'
  | cons hp _ ih =>
    rw [List.append_assoc, List.cons_append]
    exact .cons hp ih

theorem isParts_separator {t : Tree} (h : t.isWhite = true) : IsParts [t] [.separator] := by
  have hwhite : t.token.isWhitespace = true := h
  exact .cons (.separator (by simp [isCombinator, hwhite])) .nil

/-- White space is a part of its own. -/
theorem IsPart.of_white {ts : List Tree} {p : Part} {t : Tree} (h : IsPart ts p) (ht : t ∈ ts)
    (hwhite : t.isWhite = true) : ts = [t] ∧ p = .separator := by
  obtain ⟨text, htoken⟩ : ∃ text, t.token = .whitespace text := by
    unfold Tree.isWhite at hwhite
    cases h : t.token <;> simp_all [Token.isWhitespace]
  cases h with
  | separator => exact ⟨by rw [List.mem_singleton.1 ht], rfl⟩
  | carries hhead =>
    obtain rfl := List.mem_singleton.1 ht
    rw [Tree.token, hhead] at htoken
    cases htoken
  | tag | id | anything | className | pseudoClass | pseudoElement => grind [namesPseudo]

/-- White space parts what stands before it from what comes after it. -/
theorem IsParts.split {ts us : List Tree} {t : Tree} {ps : List Part} (hwhite : t.isWhite = true)
    (h : IsParts (ts ++ t :: us) ps) :
    ∃ qs rs, ps = qs ++ .separator :: rs ∧ IsParts ts qs ∧ IsParts us rs := by
  generalize hall : ts ++ t :: us = all at h
  induction h generalizing ts with
  | nil => simp at hall
  | @cons front rest p ps hp hps ih =>
    rcases List.append_eq_append_iff.1 hall with ⟨more, hfront, hrest⟩ | ⟨more, hts, hrest⟩
    · cases more with
      | nil =>
        obtain ⟨qs, rs, rfl, hqs, hrs⟩ := @ih [] hrest
        have hfirst := IsParts.cons hp hqs
        rw [hfront, List.append_nil, List.append_nil] at hfirst
        exact ⟨p :: qs, rs, rfl, hfirst, hrs⟩
      | cons u more =>
        obtain ⟨rfl, rfl⟩ := List.cons.inj hrest
        obtain ⟨hone, rfl⟩ := hp.of_white (t := t) (by simp [hfront]) hwhite
        rw [hfront, List.append_eq_singleton_iff] at hone
        obtain ⟨rfl, hmore⟩ : ts = [] ∧ more = [] := by simpa using hone
        rw [hmore]
        exact ⟨[], ps, rfl, .nil, hps⟩
    · obtain ⟨qs, rs, rfl, hqs, hrs⟩ := ih hrest.symm
      exact ⟨p :: qs, rs, rfl, hts ▸ .cons hp hqs, hrs⟩

/-! ## Chains -/

/-- The two sequences of parts are read as the same compounds, whatever has been read before. -/
def SameCompounds (ps qs : List Part) : Prop := ∀ c, compoundsFrom c ps = compoundsFrom c qs

theorem SameCompounds.append_left {ps qs : List Part} (h : SameCompounds ps qs)
    (front : List Part) : SameCompounds (front ++ ps) (front ++ qs) := by
  induction front with
  | nil => exact h
  | cons p front ih =>
    intro c
    cases p <;> simp only [List.cons_append, compoundsFrom, ih _]

theorem kept_universal : Compound.kept .universal = [] := rfl

/-- Between two separators nothing is asked for. -/
theorem sameCompounds_separators (ps : List Part) :
    SameCompounds (.separator :: .separator :: ps) (.separator :: ps) := fun c => by
  rw [compoundsFrom, compoundsFrom, kept_universal, compoundsFrom, List.nil_append]

theorem sameCompounds_separator_nil : SameCompounds [.separator] [] := fun c => by
  simp [compoundsFrom, kept_universal]

/-- Tidying drops no white space but that which stands next to more of it or at the end. -/
theorem exists_isParts_of_tidyAfter {run : List Tree} {gap : Bool} (ts : List Tree)
    {ps : List Part} (h : IsParts (run ++ tidyAfter true gap ts) ps) :
    ∃ qs, IsParts (run ++ (if gap then [space] else []) ++ ts.filter (!·.token.isComment)) qs ∧
      SameCompounds qs ps := by
  -- What has been read is put before the rest, so that parts of several trees need no cases.
  induction ts generalizing run gap ps with
  | nil =>
    rw [tidyAfter, List.append_nil] at h
    rw [List.filter_nil, List.append_nil]
    cases gap with
    | false => exact ⟨ps, by simpa using h, fun _ => rfl⟩
    | true =>
      have hsame := sameCompounds_separator_nil.append_left ps
      rw [List.append_nil] at hsame
      exact ⟨_, h.append (isParts_separator Tree.isWhite_space), hsame⟩
  | cons t ts ih =>
    rw [tidyAfter] at h
    split at h
    · next hcomment =>
      rw [List.filter_cons_of_neg (by simp [hcomment])]
      exact ih h
    · next hcomment =>
      rw [List.filter_cons_of_pos (by simpa using hcomment)]
      split at h
      · next hwhite =>
        obtain ⟨qs, hqs, hsame⟩ := ih h
        rw [if_pos rfl, List.append_assoc, List.singleton_append] at hqs
        obtain ⟨front, rest, rfl, hfront, hrest⟩ := hqs.split Tree.isWhite_space
        have hts : IsParts (t :: ts.filter (!·.token.isComment)) (.separator :: rest) :=
          (isParts_separator hwhite).append hrest
        cases gap with
        | false =>
          refine ⟨front ++ .separator :: rest, ?_, hsame⟩
          simpa using hfront.append hts
        | true =>
          refine ⟨front ++ .separator :: .separator :: rest, ?_, fun c => ?_⟩
          · simpa using hfront.append ((isParts_separator Tree.isWhite_space).append hts)
          · rw [(sameCompounds_separators rest).append_left front c, hsame c]
      · have hnext : IsParts ((run ++ (if gap then [space] else []) ++ [t]) ++
            tidyAfter true false ts) ps := by
          cases gap <;> simpa using h
        obtain ⟨qs, hqs, hsame⟩ := ih hnext
        exact ⟨qs, by simpa using hqs, hsame⟩

/-- What has been tidied is read as the same chain before it is. -/
theorem exists_isParts_of_tidy (ts : List Tree) {ps : List Part} (h : IsParts (tidy ts) ps) :
    ∃ qs, IsParts (ts.filter (!·.token.isComment)) qs ∧ chainOf qs = chainOf ps := by
  have hstart : ∀ gap, IsParts (tidyAfter false gap ts) ps →
      ∃ qs, IsParts (ts.filter (!·.token.isComment)) qs ∧
        compoundsFrom .universal qs = compoundsFrom .universal ps := by
    clear h
    intro gap h
    induction ts generalizing gap with
    | nil => exact ⟨ps, h, rfl⟩
    | cons t ts ih =>
      rw [tidyAfter] at h
      split at h
      · next hcomment =>
        rw [List.filter_cons_of_neg (by simp [hcomment])]
        exact ih gap h
      · next hcomment =>
        rw [List.filter_cons_of_pos (by simpa using hcomment)]
        split at h
        · next hwhite =>
          obtain ⟨qs, hqs, hsame⟩ := ih true h
          exact ⟨.separator :: qs, (isParts_separator hwhite).append hqs, hsame⟩
        · obtain ⟨qs, hqs, hsame⟩ := @exists_isParts_of_tidyAfter [t] false ts ps h
          exact ⟨qs, hqs, hsame _⟩
  obtain ⟨qs, hqs, hsame⟩ := hstart false (Tree.tidyAfter_false false ts ▸ h)
  exact ⟨qs, hqs, by rw [chainOf, chainOf, hsame]⟩

theorem not_isComment_of_mem_tidy {t : Tree} {ts : List Tree} (h : t ∈ tidy ts) :
    t.token.isComment = false := by
  rw [← Tree.tidyAfter_false false] at h
  rcases Tree.mem_tidyAfter h with rfl | ⟨-, hgap⟩
  · rfl
  · rw [Tree.isGap, Bool.or_eq_false_iff] at hgap
    exact hgap.2

/-- The chain of a selector that is handed on tidied is also that of the selector as written. -/
theorem parse_strip {w : Option Bracket} {y : List Char} {ts : List Tree}
    (h : Stands w false y ts) (hne : y ≠ []) (hsound : Phrase.Sound ts)
    (hseam : Tree.seamless ts = true)
    (hends : Text.strip Text.isBlank (rawOf (tidy ts)) = rawOf (tidy ts)) {chain : Chain}
    (hread : parse (String.ofList (rawOf (tidy ts))) = .ok chain) :
    parse (String.ofList (Text.strip Text.isBlank (rawOf ts))) = .ok chain := by
  rw [h.strip_rawOf hne hends]
  obtain ⟨ps, hps, rfl⟩ := parse_ok_iff.1 hread
  have htidied : spelling (String.ofList (rawOf (tidy ts))) = tidy (Tree.trim ts) := by
    rw [spelling, String.toList_ofList, h.ofText_tidy hne hsound hseam, Tree.tidy_trim,
      List.filter_eq_self]
    exact fun t ht => by simp [not_isComment_of_mem_tidy ht]
  rw [htidied] at hps
  obtain ⟨qs, hqs, hchain⟩ := exists_isParts_of_tidy _ hps
  refine parse_ok_iff.2 ⟨qs, ?_, hchain⟩
  rwa [spelling, String.toList_ofList, h.ofText_trim hne hsound hseam]

end StyleSieve.Selector
