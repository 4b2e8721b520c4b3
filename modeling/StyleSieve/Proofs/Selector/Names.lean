import StyleSieve.Proofs.Css.Forest
import StyleSieve.Proofs.Css.Lexing
import StyleSieve.Proofs.Selector.Grammar

/-!
# Selectors of one name

The selectors that ask for one class or for one id, by the name that is written behind the point or
the number sign. A name that cannot begin an identifier gives no class selector
(`parse_className_iff`), but every name gives an id selector (`parse_id`). Names with escapes are not
looked at.
-/

namespace StyleSieve.Css

/-- A character that a name takes as it stands. -/
def isPlainNameChar (c : Char) : Bool := isNameChar c && c != '\x00'

section

variable {c : Char} {cs : List Char} {l : Lexeme} {ls : List Lexeme}

theorem shownChar_of_isPlainNameChar (h : isPlainNameChar c = true) : shownChar c = c := by
  rw [isPlainNameChar, Bool.and_eq_true, bne_iff_ne] at h
  rw [shownChar, if_neg (by simpa using h.2)]

theorem isNameChar_of_isPlainNameChar (h : isPlainNameChar c = true) : isNameChar c = true := by
  rw [isPlainNameChar, Bool.and_eq_true] at h
  exact h.1

/-! ## Tokens of a name -/

theorem readName_of_plain (h : ∀ c ∈ cs, isPlainNameChar c = true) :
    readName cs = (cs, cs.length) := by
  induction cs with
  | nil => simp [readName]
  | cons c cs ih =>
    have hc := h c List.mem_cons_self
    have hname := isNameChar_of_isPlainNameChar hc
    have hback : (c == '\\') = false := by
      rw [beq_eq_false_iff_ne]
      rintro rfl
      exact absurd hname (by decide)
    have hread : readNameChar c cs = some (c, 0) := by
      simp [readNameChar, hback, hname, shownChar_of_isPlainNameChar hc]
    rw [readName, hread]
    simp only [List.drop_zero, ih fun d hd => h d (List.mem_cons_of_mem c hd), List.length_cons]
    rw [Nat.zero_add, Nat.add_comm]

/-- Where an identifier begins, no digit and no point stands first, nor behind a hyphen. -/
theorem startsNumber_of_startsIdent (h : startsIdent cs = true) : startsNumber cs = false := by
  have hfirst : ∀ d ds, isNameStart d = true ∨ d = '-' ∨ d = '\\' →
      startsDigits (d :: ds) = false := by
    intro d ds hd
    have hpoint : d ≠ '.' := by
      rintro rfl
      revert hd
      decide
    rw [startsDigits_of_ne hpoint]
    rcases hd with hd | rfl | rfl
    · exact eq_false_of_ne_true fun hdigit => by simp [not_isNameStart_of_isDigit hdigit] at hd
    · rfl
    · rfl
  cases cs with
  | nil => simp [startsIdent] at h
  | cons c cs =>
    by_cases hyphen : c = '-'
    · subst hyphen
      rw [startsIdent_hyphen] at h
      cases cs with
      | nil => simp at h
      | cons d ds =>
        simp only [startsWith_cons, Bool.or_eq_true, beq_iff_eq] at h
        exact hfirst d ds (or_assoc.1 h)
    · have hplus : c ≠ '+' := by
        rintro rfl
        rw [startsIdent_of_ne (by decide) (by decide)] at h
        exact absurd h (by decide)
      rw [startsNumber_of_ne hyphen hplus]
      apply hfirst
      by_cases hback : c = '\\'
      · exact .inr (.inr hback)
      · exact .inl (by rwa [startsIdent_of_ne hyphen hback] at h)

/-- An identifier is read only where one begins. -/
theorem startsIdent_of_readToken {s : String} (h : (readToken c cs).1 = .ident s) :
    startsIdent (c :: cs) = true := by
  have hmark : ∀ s, (readMark c cs).1 ≠ .ident s := by
    intro s
    unfold readMark
    split
    case h_1 => rcases readHash_token cs with ⟨s, h⟩ | ⟨s, h⟩ | h <;> simp [h]
    case h_11 | h_12 | h_13 | h_14 | h_15 => unfold readMatch; split <;> simp
    case h_16 | h_17 | h_18 => split <;> simp
    all_goals simp
  unfold readToken at h
  split at h
  · cases h
  split at h
  · dsimp only at h
    split at h <;> cases h
  split at h
  · rcases readNumeric_token (c :: cs) with ⟨v, hv⟩ | ⟨v, hv⟩ | ⟨v, unit, hv⟩ <;> simp [hv] at h
  split at h
  · cases h
  split at h
  · assumption
  · exact absurd h (hmark s)

theorem lexemes_of_startsIdent (hplain : ∀ c ∈ cs, isPlainNameChar c = true)
    (hstart : startsIdent cs = true) : lexemes cs = [⟨.ident (String.ofList cs), cs⟩] := by
  cases cs with
  | nil => simp [startsIdent] at hstart
  | cons c cs =>
    have hname := isNameChar_of_isPlainNameChar (hplain c List.mem_cons_self)
    have hspace : isSpace c = false :=
      eq_false_of_ne_true fun h => by simp [not_isNameChar_of_isSpace h] at hname
    have hquote : (c == '"' || c == '\'') = false := by
      rw [Bool.or_eq_false_iff, beq_eq_false_iff_ne, beq_eq_false_iff_ne]
      constructor <;> (rintro rfl; exact absurd hname (by decide))
    have hclose : ¬ cs.take 2 = ['-', '>'] := by
      intro htake
      have hmem : '>' ∈ cs := List.mem_of_mem_take (i := 2) (by simp [htake])
      exact absurd (hplain '>' (List.mem_cons_of_mem c hmem)) (by decide)
    have hlike : readIdentLike (c :: cs) = (.ident (String.ofList (c :: cs)), cs.length + 1) := by
      rw [readIdentLike_of_no_bracket]
      · rw [readName_of_plain hplain, List.length_cons]
      · simp [readName_of_plain hplain]
    have htoken : readToken c cs = (.ident (String.ofList (c :: cs)), cs.length) := by
      rw [readToken, if_neg (by simp [hspace]), if_neg (by simp [hquote]),
        if_neg (by simp [startsNumber_of_startsIdent hstart]), if_neg (by simp [hclose]),
        if_pos hstart, hlike]
      rfl
    rw [lexemes_cons, htoken]
    simp

/-! ## Tokens of the mark before a name -/

theorem startsNumber_of_isDigit (h : startsWith Char.isDigit cs = true) :
    startsNumber cs = true := by
  cases cs with
  | nil => simp at h
  | cons c cs =>
    rw [startsWith_cons] at h
    have hmarks : c ≠ '-' ∧ c ≠ '+' ∧ c ≠ '.' := by
      refine ⟨?_, ?_, ?_⟩ <;> (rintro rfl; exact absurd h (by decide))
    rw [startsNumber_of_ne hmarks.1 hmarks.2.1, startsDigits_of_ne hmarks.2.2, h]

/-- A point begins a number just before a digit. -/
theorem startsNumber_point (cs : List Char) :
    startsNumber ('.' :: cs) = startsWith Char.isDigit cs := by
  rw [startsNumber_of_ne (by decide) (by decide), startsDigits]

theorem lexemes_point (h : startsWith Char.isDigit cs = false) :
    lexemes ('.' :: cs) = ⟨.delim '.', ['.']⟩ :: lexemes cs := by
  have hident : startsIdent ('.' :: cs) = false := by
    rw [startsIdent_of_ne (by decide) (by decide)]
    decide
  have htoken : readToken '.' cs = (.delim '.', 0) := by
    rw [readToken, if_neg (by decide), if_neg (by decide), if_neg (by simp [startsNumber_point, h]),
      if_neg (by simp), if_neg (by simp [hident])]
    rfl
  rw [lexemes_cons, htoken]
  simp

theorem readToken_point (h : startsWith Char.isDigit cs = true) :
    (readToken '.' cs).1 = (readNumeric ('.' :: cs)).1 := by
  rw [readToken, if_neg (by decide), if_neg (by decide), if_pos (by rw [startsNumber_point, h])]

theorem lexemes_numberSign (hplain : ∀ c ∈ cs, isPlainNameChar c = true) (hne : cs ≠ []) :
    ∃ token, (token = .idHash (String.ofList cs) ∨ token = .hash (String.ofList cs)) ∧
      lexemes ('#' :: cs) = [⟨token, '#' :: cs⟩] := by
  have hread : ∀ token, readHash cs = (token, cs.length) →
      lexemes ('#' :: cs) = [⟨token, '#' :: cs⟩] := by
    intro token hhash
    have htoken : readToken '#' cs = (token, cs.length) :=
      (readToken_of_beginsMark (by decide) cs).trans hhash
    rw [lexemes_cons, htoken]
    simp
  rw [readHash, readName_of_plain hplain] at hread
  by_cases hstart : startsIdent cs = true
  · exact ⟨_, .inl rfl, hread _ (if_pos hstart)⟩
  · refine ⟨_, .inr rfl, hread _ ?_⟩
    rw [if_neg hstart, if_pos]
    obtain ⟨c, rest, rfl⟩ := List.exists_cons_of_ne_nil hne
    have hname := isNameChar_of_isPlainNameChar (hplain c List.mem_cons_self)
    by_cases hyphen : c = '-'
    · simp [hyphen]
    · have hback : c ≠ '\\' := by
        rintro rfl
        exact absurd hname (by decide)
      rw [startsIdent_of_ne hyphen hback] at hstart
      simpa [isNameChar, hstart, hyphen] using hname

end

end StyleSieve.Css

namespace StyleSieve.Selector

open Css
open Text (lowerCase NameSet)

variable {name : String} {chain : Chain}

/-! ## Parts -/

theorem IsParts.exists_first {t : Tree} {ts : List Tree} {ps : List Part}
    (h : IsParts (t :: ts) ps) : ∃ front rest p, ts = front ++ rest ∧ IsPart (t :: front) p := by
  generalize htrees : t :: ts = trees at h
  cases h with
  | nil => cases htrees
  | @cons front rest p _ hp _ =>
    cases front with
    | nil => cases hp
    | cons u front =>
      obtain ⟨rfl, rfl⟩ := List.cons.inj htrees
      exact ⟨front, rest, p, rfl, hp⟩

/-- Behind a point stands the name of a class. -/
theorem IsParts.of_point {t : Tree} {ts : List Tree} {ps : List Part} (h : IsParts (t :: ts) ps)
    (ht : t.token = .delim '.') : ∃ u us name, ts = u :: us ∧ u.token = .ident name := by
  obtain ⟨front, rest, p, rfl, hp⟩ := h.exists_first
  cases hp with
  | className _ hname => exact ⟨_, _, _, rfl, hname⟩
  | _ => simp_all [isCombinator, Token.isWhitespace, Tree.token]

/-- No selector begins with a number. -/
theorem IsParts.not_numeric {t : Tree} {ts : List Tree} {ps : List Part} (h : IsParts (t :: ts) ps)
    {cs : List Char} : t.token ≠ (readNumeric cs).1 := by
  obtain ⟨front, rest, p, rfl, hp⟩ := h.exists_first
  intro ht
  rcases readNumeric_token cs with ⟨n, hn⟩ | ⟨n, hn⟩ | ⟨n, unit, hn⟩ <;> rw [hn] at ht <;>
    cases hp <;> simp_all [isCombinator, Token.isWhitespace, Tree.token]

/-- The first tree, unless it is a comment, begins with the first token. -/
theorem exists_cons_trees {c : Char} (hc : c ≠ '/') (cs : List Char) :
    ∃ t ts, (Tree.ofText (c :: cs)).filter (!·.token.isComment) = t :: ts ∧
      t.token = (readToken c cs).1 := by
  obtain ⟨t, ts, htrees, ht⟩ :=
    Tree.exists_cons_forest ⟨(readToken c cs).1, c :: cs.take (readToken c cs).2⟩
      (lexemes (cs.drop (readToken c cs).2))
  have hcomment : t.token.isComment = false := eq_false_of_ne_true fun h =>
    hc ((readToken_token c cs).2.1 (by rwa [ht] at h))
  refine ⟨t, ts.filter (!·.token.isComment), ?_, ht⟩
  rw [Tree.ofText, lexemes_cons, htrees, List.filter_cons_of_pos (by simp [hcomment])]

/-! ## Selectors -/

section

variable (hplain : ∀ c ∈ name.toList, isPlainNameChar c = true)

include hplain

/-- A point and a name are a selector just where the name can begin an identifier. -/
theorem parse_className_iff :
    parse ("." ++ name) = .ok chain ↔ startsIdent name.toList = true ∧
      chain = [{ Compound.universal with classes := (∅ : NameSet).insert (lowerCase name) }] := by
  have htext : ("." ++ name).toList = '.' :: name.toList := by simp
  have hread (hstart : startsIdent name.toList = true) : parse ("." ++ name) =
      .ok [{ Compound.universal with classes := (∅ : NameSet).insert (lowerCase name) }] := by
    have hdigit : startsWith Char.isDigit name.toList = false := eq_false_of_ne_true fun h =>
      absurd (startsNumber_of_isDigit h) (by simp [startsNumber_of_startsIdent hstart])
    have hparts : IsParts (spelling ("." ++ name)) [.className (lowerCase name)] := by
      rw [spelling, Tree.ofText, htext, lexemes_point hdigit, lexemes_of_startsIdent hplain hstart,
        String.ofList_toList]
      exact .cons (.className rfl rfl) .nil
    exact parse_ok_iff.2 ⟨_, hparts, rfl⟩
  refine ⟨fun h => ?_, fun h => h.2 ▸ hread h.1⟩
  suffices hstart : startsIdent name.toList = true from
    ⟨hstart, Except.ok.inj (h.symm.trans (hread hstart))⟩
  obtain ⟨ps, hparts, -⟩ := parse_ok_iff.1 h
  rw [spelling, htext] at hparts
  by_cases hdigit : startsWith Char.isDigit name.toList = true
  · obtain ⟨t, ts, htrees, ht⟩ := exists_cons_trees (c := '.') (by decide) name.toList
    rw [htrees] at hparts
    exact absurd (ht.trans (readToken_point hdigit)) hparts.not_numeric
  · rw [Tree.ofText, lexemes_point (by simpa using hdigit), Tree.forest_leaf rfl,
      List.filter_cons_of_pos (by rfl)] at hparts
    obtain ⟨u, us, spelled, hrest, hu⟩ := hparts.of_point rfl
    cases hname : name.toList with
    | nil => simp [hname, Tree.forest, Tree.grow, Tree.unwind] at hrest
    | cons c cs =>
      have hc : c ≠ '/' := by
        rintro rfl
        exact absurd (hplain '/' (by simp [hname])) (by decide)
      obtain ⟨t, ts, htrees, ht⟩ := exists_cons_trees hc cs
      rw [← Tree.ofText, hname, htrees] at hrest
      obtain rfl := (List.cons.inj hrest).1
      exact startsIdent_of_readToken (ht.symm.trans hu)

/-- A number sign and a name are a selector, whatever the name begins with. -/
theorem parse_id (hne : name ≠ "") :
    parse ("#" ++ name) = .ok [{ Compound.universal with id := some (lowerCase name) }] := by
  have htext : ("#" ++ name).toList = '#' :: name.toList := by simp
  obtain ⟨token, htoken, hlexemes⟩ :=
    lexemes_numberSign hplain (mt String.toList_eq_nil_iff.1 hne)
  rw [String.ofList_toList] at htoken
  have hparts : IsParts (spelling ("#" ++ name)) [.id (lowerCase name)] := by
    rw [spelling, Tree.ofText, htext, hlexemes]
    rcases htoken with rfl | rfl
    · exact .cons (.id (.inl rfl)) .nil
    · exact .cons (.id (.inr rfl)) .nil
  exact parse_ok_iff.2 ⟨_, hparts, rfl⟩

end

end StyleSieve.Selector
