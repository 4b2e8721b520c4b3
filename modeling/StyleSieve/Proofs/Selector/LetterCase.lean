import StyleSieve.Proofs.Css.LetterCase
import StyleSieve.Proofs.Selector.Grammar
import StyleSieve.Usage.Index

/-!
# Selectors and letter case

A selector is read to the same chain, or not at all, in whatever case its ASCII letters stand
(`parse_eq_of_sameAscii`). The reasons for which it cannot be read are not compared; they show the
text as it was written.
-/

namespace StyleSieve.Selector

open Css
open Text (lowerAscii lowerCase lowerCase_of_sameAscii)

/-! ## Tokens up to letter case -/

/-- Tokens with a name that a part may begin or end with. -/
def namedTokens : List (String → Token) := [.ident, .function, .idHash, .hash]

theorem exists_name_of_lowered {k : String → Token} (hk : k ∈ namedTokens) {token : Token}
    {name : String} (h : token.lowered = (k name).lowered) :
    ∃ name', token = k name' ∧ lowerCase name' = lowerCase name := by
  simp only [namedTokens, List.mem_cons, List.not_mem_nil, or_false] at hk
  rcases hk with rfl | rfl | rfl | rfl <;> cases token <;> simp [Token.lowered] at h ⊢ <;>
    exact lowerCase_of_sameAscii h

/-- Tokens without letters. -/
def isMark : Token → Bool
  | .colon => true
  | .opening _ => true
  | .delim c => !c.isAlpha
  | _ => false

theorem eq_of_lowered {token mark : Token} (hmark : isMark mark = true)
    (h : token.lowered = mark.lowered) : token = mark := by
  match mark, hmark with
  | .colon, _ | .opening _, _ => cases token <;> simp_all [Token.lowered]
  | .delim d, hd =>
    have halpha : d.isAlpha = false := by simpa [isMark] using hd
    cases token with
    | delim c =>
      rw [Token.lowered, Token.lowered, (toLower_eq_iff halpha).2 rfl] at h
      rw [(toLower_eq_iff halpha).1 (Token.delim.inj h)]
    | _ => simp [Token.lowered] at h

/-! ## Parts up to letter case -/

section

variable {t u : Tree}

theorem token_of_lowered (h : u.lowered = t.lowered) : u.token.lowered = t.token.lowered := by
  rw [← Tree.token_lowered, h, Tree.token_lowered]

theorem mark_of_lowered (h : u.lowered = t.lowered) {mark : Token} (hmark : isMark mark = true)
    (ht : t.token = mark) : u.token = mark :=
  eq_of_lowered hmark (by rw [token_of_lowered h, ht])

theorem exists_name_of_tree {k : String → Token} (hk : k ∈ namedTokens) (h : u.lowered = t.lowered)
    {name : String} (ht : t.token = k name) :
    ∃ name', u.token = k name' ∧ lowerCase name' = lowerCase name :=
  exists_name_of_lowered hk (by rw [token_of_lowered h, ht])

theorem exists_namesPseudo (h : u.lowered = t.lowered) {name : String}
    (ht : namesPseudo t.token name) :
    ∃ name', namesPseudo u.token name' ∧ lowerCase name' = lowerCase name := by
  rcases ht with ht | ht
  · obtain ⟨name', hu, hname⟩ := exists_name_of_tree (by simp [namedTokens]) h ht
    exact ⟨name', .inl hu, hname⟩
  · obtain ⟨name', hu, hname⟩ := exists_name_of_tree (by simp [namedTokens]) h ht
    exact ⟨name', .inr hu, hname⟩

theorem isWhitespace_lowered (token : Token) : token.lowered.isWhitespace = token.isWhitespace := by
  cases token <;> rfl

theorem isComment_lowered (token : Token) : token.lowered.isComment = token.isComment := by
  cases token <;> rfl

theorem isGap_lowered (t : Tree) : isGap t.lowered = isGap t := by
  rw [isGap, Tree.token_lowered, isWhitespace_lowered, isComment_lowered, isGap]

/-- The first tree of a body that is not a gap, in lower case. -/
theorem find?_isGap_lowered (body : List Tree) :
    (body.map Tree.lowered).find? (!isGap ·) = (body.find? (!isGap ·)).map Tree.lowered := by
  rw [List.find?_map]
  simp only [Function.comp_def, isGap_lowered]

theorem isCombinator_of_lowered (h : u.lowered = t.lowered) (ht : isCombinator t = true) :
    isCombinator u = true := by
  simp only [isCombinator, Bool.or_eq_true, beq_iff_eq] at ht ⊢
  rcases ht with ((ht | ht) | ht) | ht
  · rw [← isWhitespace_lowered, token_of_lowered h, isWhitespace_lowered]
    exact .inl (.inl (.inl ht))
  · exact .inl (.inl (.inr (mark_of_lowered h rfl ht)))
  · exact .inl (.inr (mark_of_lowered h rfl ht))
  · exact .inr (mark_of_lowered h rfl ht)

end

theorem IsPart.of_lowered {ts us : List Tree} {p : Part} (h : IsPart ts p)
    (hus : us.map Tree.lowered = ts.map Tree.lowered) : IsPart us p := by
  cases h with
  | tag ht =>
    obtain ⟨u, rfl, hu⟩ := List.map_eq_singleton_iff.1 hus
    obtain ⟨name', hname', hname⟩ := exists_name_of_tree (by simp [namedTokens]) hu ht
    rw [← hname]
    exact .tag hname'
  | id ht =>
    obtain ⟨u, rfl, hu⟩ := List.map_eq_singleton_iff.1 hus
    rcases ht with ht | ht
    · obtain ⟨name', hname', hname⟩ := exists_name_of_tree (by simp [namedTokens]) hu ht
      rw [← hname]
      exact .id (.inl hname')
    · obtain ⟨name', hname', hname⟩ := exists_name_of_tree (by simp [namedTokens]) hu ht
      rw [← hname]
      exact .id (.inr hname')
  | anything ht =>
    obtain ⟨u, rfl, hu⟩ := List.map_eq_singleton_iff.1 hus
    exact .anything (mark_of_lowered hu rfl ht)
  | separator ht =>
    obtain ⟨u, rfl, hu⟩ := List.map_eq_singleton_iff.1 hus
    exact .separator (isCombinator_of_lowered hu ht)
  | className hdot ht =>
    obtain ⟨v, us, rfl, hv, hus⟩ := List.map_eq_cons_iff.1 hus
    obtain ⟨u, rfl, hu⟩ := List.map_eq_singleton_iff.1 hus
    obtain ⟨name', hname', hname⟩ := exists_name_of_tree (by simp [namedTokens]) hu ht
    rw [← hname]
    exact .className (mark_of_lowered hv rfl hdot) hname'
  | pseudoClass hcolon ht =>
    obtain ⟨v, us, rfl, hv, hus⟩ := List.map_eq_cons_iff.1 hus
    obtain ⟨u, rfl, hu⟩ := List.map_eq_singleton_iff.1 hus
    obtain ⟨name', hname', hname⟩ := exists_namesPseudo hu ht
    rw [← hname]
    exact .pseudoClass (mark_of_lowered hv rfl hcolon) hname'
  | pseudoElement hcolon hcolon' ht =>
    obtain ⟨v, us, rfl, hv, hus⟩ := List.map_eq_cons_iff.1 hus
    obtain ⟨w, us, rfl, hw, hus⟩ := List.map_eq_cons_iff.1 hus
    obtain ⟨u, rfl, hu⟩ := List.map_eq_singleton_iff.1 hus
    obtain ⟨name', hname', hname⟩ := exists_namesPseudo hu ht
    rw [← hname]
    exact .pseudoElement (mark_of_lowered hv rfl hcolon) (mark_of_lowered hw rfl hcolon') hname'
  | @carries head body close t name hhead hfirst ht =>
    obtain ⟨u, rfl, hu⟩ := List.map_eq_singleton_iff.1 hus
    cases u with
    | leaf l => simp [Tree.lowered] at hu
    | block head' body' close' =>
      rw [Tree.lowered, Tree.lowered, Tree.block.injEq, Tree.loweredOf_eq_map,
        Tree.loweredOf_eq_map] at hu
      obtain ⟨hheads, hbodies, -⟩ := hu
      have hhead' : head'.token = .opening .square :=
        eq_of_lowered rfl (by rw [← hhead]; exact congrArg Lexeme.token hheads)
      have hfind := find?_isGap_lowered body'
      rw [hbodies, find?_isGap_lowered, hfirst, Option.map_some] at hfind
      obtain ⟨t', hfirst', ht'⟩ := Option.map_eq_some_iff.1 hfind.symm
      obtain ⟨name', hname', hname⟩ := exists_name_of_tree (by simp [namedTokens]) ht' ht
      rw [← hname]
      exact .carries hhead' hfirst' hname'

theorem IsParts.of_lowered {ts us : List Tree} {ps : List Part} (h : IsParts ts ps)
    (hus : us.map Tree.lowered = ts.map Tree.lowered) : IsParts us ps := by
  induction h generalizing us with
  | nil =>
    obtain rfl := List.map_eq_nil_iff.1 hus
    exact .nil
  | cons hp _ ih =>
    rw [List.map_append] at hus
    obtain ⟨front, rest, rfl, hfront, hrest⟩ := List.map_eq_append_iff.1 hus
    exact .cons (hp.of_lowered hfront) (ih hrest)

/-! ## Selectors -/

theorem spelling_lowerAscii (selector : String) :
    (spelling (lowerAscii selector)).map Tree.lowered = (spelling selector).map Tree.lowered := by
  have hcomment : ∀ t : Tree, (!t.lowered.token.isComment) = (!t.token.isComment) := fun t => by
    rw [Tree.token_lowered, isComment_lowered]
  have hfilter : ∀ ts : List Tree, (ts.filter (!·.token.isComment)).map Tree.lowered
      = (ts.map Tree.lowered).filter (!·.token.isComment) := fun ts => by
    rw [List.filter_map]
    simp only [Function.comp_def, hcomment]
  have htext : (lowerAscii selector).toList = lowered selector.toList := by
    simp [lowerAscii, lowered]
  rw [spelling, spelling, hfilter, hfilter, htext, Tree.ofText_lowered]

/-- Two selectors that differ in the case of ASCII letters at most are both read to the same chain or
both not at all, so every index answers alike for both. -/
theorem parse_eq_of_sameAscii {s t : String} (h : Text.sameAscii s t = true) :
    (parse s).toOption = (parse t).toOption ∧
      ∀ i : Usage.Index, (parse s).toOption.map i.includes = (parse t).toOption.map i.includes := by
  have hone : ∀ {s t : String}, lowerAscii s = lowerAscii t → ∀ chain, parse s = .ok chain →
      parse t = .ok chain := by
    intro s t h chain hs
    obtain ⟨ps, hparts, hchain⟩ := parse_ok_iff.1 hs
    refine parse_ok_iff.2 ⟨ps, hparts.of_lowered ?_, hchain⟩
    rw [← spelling_lowerAscii t, ← h, spelling_lowerAscii]
  have hboth : (parse s).toOption = (parse t).toOption := by
    rw [Text.sameAscii_iff] at h
    cases hs : parse s with
    | ok chain => rw [hone h chain hs]
    | error e =>
      cases ht : parse t with
      | ok chain =>
        rw [hone h.symm chain ht] at hs
        cases hs
      | error e' => rfl
  exact ⟨hboth, fun i => by rw [hboth]⟩

/-- An escape, an attribute with a value, an argument and combinators in two letter cases. -/
theorem parse_eq_nav_link :
    let s := "NAV > A.\\4d ain:NOT(.X)[HREF^=B]::Before"
    let t := "nav > a.\\4D AIN:not(.x)[Href^=b]::BEFORE"
    Text.sameAscii s t = true ∧ (parse s).isOk = true ∧ (parse s).toOption = (parse t).toOption ∧
      ∀ i : Usage.Index, (parse s).toOption.map i.includes = (parse t).toOption.map i.includes := by
  intro s t
  have hsame : Text.sameAscii s t = true := by decide +kernel
  have hread : (parse s).isOk = true := by decide +kernel
  exact ⟨hsame, hread, parse_eq_of_sameAscii hsame⟩

end StyleSieve.Selector
