import StyleSieve.Proofs.Markup.Segment

/-!
# What blanking takes out of written documents

The content of raw text elements is taken out of a document before it is read, for one name after
the other and without regard to comments. It takes out nothing else as long as no segment leaves an
element of a name open that an end tag behind the segment closes (`Untangled`); a start tag counts
as one of a name that it only begins with if the next character is a hyphen. What happens to a
document in which segments are tangled is told by single cases only.
-/

namespace StyleSieve.Markup

open Text
open Css (startsWith)

variable {n : RawName}

/-! ## Tags of raw text elements -/

/-- No text begins with two of the names. -/
theorem RawName.eq_of_spells {m : RawName} {cs : List Char} (h : spells n.chars cs = true)
    (h' : spells m.chars cs = true) : n = m := by
  have hzip : ∀ ns ms cs : List Char, spells ns cs = true → spells ms cs = true →
      ∀ p ∈ ns.zip ms, sameLetter p.1 p.2 = true := by
    intro ns
    induction ns with
    | nil => simp
    | cons n ns ih =>
      rintro (_ | ⟨m, ms⟩) (_ | ⟨c, cs⟩) hns hms p hp
      · cases hp
      · cases hp
      · cases hns
      · rw [spells, Bool.and_eq_true] at hns hms
        rcases List.mem_cons.1 hp with rfl | hp
        · have hn := beq_iff_eq.1 hns.1
          have hm := beq_iff_eq.1 hms.1
          exact beq_iff_eq.2 (hn.trans hm.symm)
        · exact ih ms cs hns.2 hms.2 p hp
  have happart : ∀ n ∈ rawTextElements, ∀ m ∈ rawTextElements,
      (∀ p ∈ n.toList.zip m.toList, sameLetter p.1 p.2 = true) → n = m := by
    decide +kernel
  exact Subtype.ext (happart n.1 n.2 m.1 m.2 (hzip _ _ cs h h'))

theorem RawName.exists_cons (n : RawName) : ∃ c cs, n.chars = c :: cs ∧
    ∀ d ∈ marks, sameLetter c d = false := by
  have hne : ∀ name ∈ rawTextElements, name.toList ≠ [] := by decide
  obtain ⟨c, cs, hchars⟩ := List.exists_cons_of_ne_nil (hne n.1 n.2)
  exact ⟨c, cs, hchars, n.unmarked c (by rw [RawName.chars, hchars]; exact List.mem_cons_self)⟩

/-- Behind a mark there is no name. -/
theorem opens_mark {c : Char} (hc : c ∈ marks) (cs : List Char) :
    opens n.chars ('<' :: c :: cs) = false := by
  obtain ⟨d, ds, hchars, hd⟩ := n.exists_cons
  rw [opens, hchars, spells, hd c hc]
  rfl

theorem WrittenTag.isStartTag {tag : WrittenTag} (h : tag.name.folded = n.1) :
    IsStartTag n.chars ('<' :: tag.inside) := by
  obtain ⟨hlength, hspells⟩ := (tag.name.folded_eq_iff n).1 h
  have hbehind : startsWith isWord (tag.behindName ++ if tag.slash then ['/'] else []) = false := by
    have hstarts := tag.startsWith_behindName fun c hc => by
      simpa using of_isTagSpace (p := fun c => !isWord c) (by decide) hc
    cases hcs : tag.behindName with
    | nil => cases tag.slash <;> rfl
    | cons c cs => rwa [hcs] at hstarts
  have hclosing : '>' ∉ tag.behindName ++ if tag.slash then ['/'] else [] := by
    have hinside := tag.unbracketed_inside
    rw [inside, unbracketed_append] at hinside
    exact hinside.2.2
  exact ⟨_, _, rfl, hlength, hspells, hbehind, hclosing⟩

/-- The tag of one raw text element is not that of another. -/
theorem WrittenTag.opens_of_ne {tag : WrittenTag} {m : RawName} (h : tag.name.folded = m.1)
    (hne : n ≠ m) : opens n.chars tag.text = false := by
  obtain ⟨hlength, hspells⟩ := (tag.name.folded_eq_iff m).1 h
  have hother : spells m.chars (tag.inside ++ ['>']) = true := by
    rw [inside, List.append_assoc, spells_append hlength, hspells]
  rw [text, opens, Bool.and_eq_false_iff]
  left
  rw [Bool.eq_false_iff]
  intro hspelled
  exact hne (RawName.eq_of_spells hspelled hother)

namespace WrittenStop

/-- The end tag without its closing bracket. -/
def opening (tag : WrittenStop) : List Char := '<' :: '/' :: (tag.name.chars ++ tag.gap.chars)

theorem text_append (tag : WrittenStop) (rest : List Char) :
    tag.text ++ rest = tag.opening ++ '>' :: rest := by
  simp [text, opening]

theorem not_mem_opening (tag : WrittenStop) : '>' ∉ tag.opening := by
  have h := unbracketed_append.2 ⟨tag.name.unbracketed, tag.gap.unbracketed⟩
  simpa [opening] using h.2

/-- An end tag is one of a raw text element just when it has the name of one. -/
theorem isEndTag_iff (tag : WrittenStop) :
    IsEndTag n.chars tag.opening ↔ tag.name.folded = n.1 := by
  rw [tag.name.folded_eq_iff n]
  constructor
  · rintro ⟨spelled, gap, htext, hlength, hspells, hgap⟩
    have hcut : tag.name.chars ++ tag.gap.chars = spelled ++ gap := by
      simpa [opening] using htext
    obtain rfl : tag.name.chars = spelled := by
      rcases List.append_eq_append_iff.1 hcut with ⟨more, hspelled, hspace⟩ | ⟨more, hname, hblank⟩
      · -- A character of white space would be one of the name.
        cases more with
        | nil => simpa using hspelled.symm
        | cons c more =>
          have hc : isTagSpace c = true := tag.gap.space c (by simp [hspace])
          have hmark : c ∈ marks := by
            simpa using of_isTagSpace (p := marks.contains) (by decide) hc
          exact absurd (by simp [hspelled]) (not_mem_of_spells n.unmarked hlength hspells hmark)
      · -- A character of the name would be white space.
        cases more with
        | nil => simpa using hname
        | cons c more =>
          have hplain := not_space_of_isPlain (tag.name.plain c (by simp [hname]))
          have hc := hgap c (by simp [hblank])
          rw [hplain.2] at hc
          cases hc
    exact ⟨hlength, hspells⟩
  · rintro ⟨hlength, hspells⟩
    exact ⟨_, _, rfl, hlength, hspells, fun c hc => of_isTagSpace (by decide) (tag.gap.space c hc)⟩

end WrittenStop

/-! ## End tags in documents -/

theorem findEndTag_cons {name : List Char} {c : Char} {cs : List Char}
    (h : endTagLength name (c :: cs) = none) (hcs : findEndTag name cs = none) :
    findEndTag name (c :: cs) = none := by
  rw [findEndTag, h, hcs]
  rfl

theorem findEndTag_text {name text rest : List Char} (h : '<' ∉ text)
    (hrest : findEndTag name rest = none) : findEndTag name (text ++ rest) = none := by
  induction text with
  | nil => exact hrest
  | cons c text ih =>
    rw [List.mem_cons, not_or] at h
    refine findEndTag_cons ?_ (ih h.2)
    rw [endTagLength]
    intro cs hcs
    exact h.1 (List.cons.inj hcs).1.symm

theorem WrittenTag.findEndTag_text (tag : WrittenTag) {rest : List Char}
    (hrest : findEndTag n.chars rest = none) : findEndTag n.chars (tag.text ++ rest) = none := by
  have hinside : '<' ∉ tag.inside ++ ['>'] := by simpa using tag.unbracketed_inside.1
  obtain ⟨c, cs, hname, hc, -⟩ := tag.name.exists_cons
  refine findEndTag_cons ?_ (Markup.findEndTag_text hinside hrest)
  rw [endTagLength]
  intro cs' htext
  have hfirst : (tag.inside ++ ['>'] ++ rest).head? = some '/' := congrArg (·.tail.head?) htext
  have hslash : c = '/' := by simpa [inside, hname] using hfirst
  exact ne_of_isPlain hc rfl hslash

theorem WrittenStop.findEndTag_text {tag : WrittenStop} (h : tag.name.folded ≠ n.1)
    {rest : List Char} (hrest : findEndTag n.chars rest = none) :
    findEndTag n.chars (tag.text ++ rest) = none := by
  have hbehind : '<' ∉ '/' :: (tag.name.chars ++ (tag.gap.chars ++ ['>'])) := by
    have := tag.name.unbracketed.1
    have := tag.gap.unbracketed.1
    simp [*]
  refine findEndTag_cons ?_ (Markup.findEndTag_text hbehind hrest)
  rw [Option.eq_none_iff_forall_ne_some]
  intro k hk
  obtain ⟨text, after, heq, htag, -⟩ := endTagLength_eq_some_iff.1 hk
  have hcut : tag.opening ++ '>' :: rest = text ++ '>' :: after := by
    rw [← heq, ← tag.text_append]
    rfl
  obtain ⟨rfl, -⟩ :=
    append_cons_inj_of_not_mem tag.not_mem_opening (htag.not_mem n.unmarked) hcut
  exact h (tag.isEndTag_iff.1 htag)

/-! ## Segments -/

namespace Segment

/-- An element of the name begins in the segment that does not end there. -/
def leavesOpen (n : RawName) : Segment → Bool
  | text _ _ => false
  | start tag => opens n.chars tag.text
  | stop _ => false
  | comment body _ => Markup.leavesOpen n.chars body
  | raw e => n != e.name && Markup.leavesOpen n.chars e.content

/-- The end of a comment does not come to be where content is taken out. -/
theorem unended_emptyOut {body : List Char} (h : ¬ ['-', '-', '>'] <:+: body) :
    ¬ ['-', '-', '>'] <:+: emptyOut n.chars body := by
  rintro ⟨before, after, heq⟩
  have hout : emptyOut n.chars body = before ++ (['-', '-'] ++ '>' :: after) := by simp [← heq]
  obtain ⟨before', after', rfl⟩ :=
    (thinned_emptyOut n.unmarked body).exists_of_ended (by decide) hout
  exact h ⟨before', after', by simp⟩

theorem unended_content (e : RawElement) :
    findEndTag e.name.chars (if n = e.name then [] else emptyOut n.chars e.content) = none := by
  split
  · rfl
  · exact findEndTag_emptyOut n.unmarked e.name.unmarked e.unended

/-- The segment without the content of the elements of one name. -/
def emptied (n : RawName) : Segment → Segment
  | text cs plain => text cs plain
  | start tag => start tag
  | stop tag => stop tag
  | comment body unended => comment (emptyOut n.chars body) (unended_emptyOut unended)
  | raw e => raw { e with
      content := if n = e.name then [] else emptyOut n.chars e.content
      unended := unended_content e }

theorem tags_emptied (n : RawName) (s : Segment) : (s.emptied n).tags = s.tags := by
  cases s <;> rfl

end Segment

/-! ## One name -/

/-- A tag stays, if none of the elements that it begins is ended behind it. -/
theorem emptyOut_tag {inside rest : List Char} (hinside : Unbracketed inside)
    (h : opens n.chars ('<' :: (inside ++ ['>'])) = true → findEndTag n.chars rest = none) :
    emptyOut n.chars ('<' :: (inside ++ '>' :: rest))
      = '<' :: (inside ++ '>' :: emptyOut n.chars rest) := by
  have hbehind : '<' ∉ inside ++ ['>'] := by simpa using hinside.1
  have htext : emptyOut n.chars (inside ++ ['>'] ++ rest)
      = inside ++ ['>'] ++ emptyOut n.chars rest := emptyOut_text hbehind rest
  rw [List.append_assoc, List.append_assoc, List.singleton_append, List.singleton_append] at htext
  rw [emptyOut_cons, htext]
  intro k hk
  obtain ⟨text, after, heq, htag, rfl⟩ := isStartTag_of_startTagLength hk
  have hbracket : '>' ∉ '<' :: inside := by simpa using hinside.2
  obtain ⟨rfl, rfl⟩ := append_cons_inj_of_not_mem hbracket (htag.not_mem n.unmarked) heq
  rw [drop_of_eq_append heq]
  exact h (opens_of_isStartTag htag [])

theorem WrittenTag.emptyOut_text (tag : WrittenTag) {rest : List Char}
    (h : opens n.chars tag.text = true → findEndTag n.chars rest = none) :
    emptyOut n.chars (tag.text ++ rest) = tag.text ++ emptyOut n.chars rest := by
  have htag := emptyOut_tag tag.unbracketed_inside h
  simpa [WrittenTag.text] using htag

theorem WrittenStop.emptyOut_text (tag : WrittenStop) (rest : List Char) :
    emptyOut n.chars (tag.text ++ rest) = tag.text ++ emptyOut n.chars rest := by
  have hinside : Unbracketed ('/' :: (tag.name.chars ++ tag.gap.chars)) := by
    have h := unbracketed_append.2 ⟨tag.name.unbracketed, tag.gap.unbracketed⟩
    simpa [Unbracketed] using h
  have hstays : opens n.chars ('<' :: ('/' :: (tag.name.chars ++ tag.gap.chars) ++ ['>'])) = true →
      findEndTag n.chars rest = none := by
    intro hopens
    rw [List.cons_append, opens_mark (by decide)] at hopens
    cases hopens
  have htag := emptyOut_tag hinside hstays
  simpa [WrittenStop.text] using htag

theorem emptyOut_comment {body rest : List Char}
    (h : leavesOpen n.chars body = true → findEndTag n.chars rest = none) :
    emptyOut n.chars ('<' :: '!' :: '-' :: '-' :: (body ++ '-' :: '-' :: '>' :: rest))
      = '<' :: '!' :: '-' :: '-' :: (emptyOut n.chars body
          ++ '-' :: '-' :: '>' :: emptyOut n.chars rest) := by
  have hbegin : ∀ rest, emptyOut n.chars (['!', '-', '-'] ++ rest)
      = ['!', '-', '-'] ++ emptyOut n.chars rest := emptyOut_text (by decide)
  have hend : ∀ rest, emptyOut n.chars (['-', '-', '>'] ++ rest)
      = ['-', '-', '>'] ++ emptyOut n.chars rest := emptyOut_text (by decide)
  have hparted : Parted (['-', '-', '>'] ++ rest) := by
    rintro c ⟨⟩
    exact .inr rfl
  have hbody := emptyOut_append n.unmarked hparted fun hopen =>
    findEndTag_text (by decide) (h hopen)
  rw [emptyOut_cons]
  · have hparts := hbegin (body ++ (['-', '-', '>'] ++ rest))
    rw [hbody, hend] at hparts
    simpa using hparts
  · intro k hk
    obtain ⟨text, after, heq, htag, -⟩ := isStartTag_of_startTagLength hk
    have hopens := opens_of_isStartTag htag after
    rw [← heq, opens_mark (by decide)] at hopens
    cases hopens

/-- A segment is emptied by itself, if none of the elements that it leaves open is ended behind
it. -/
theorem Segment.emptyOut_markup {s : Segment} {rest : List Char}
    (h : s.leavesOpen n = true → findEndTag n.chars rest = none) :
    emptyOut n.chars (s.markup ++ rest) = (s.emptied n).markup ++ emptyOut n.chars rest := by
  cases s with
  | text cs plain => exact emptyOut_text plain rest
  | start tag => exact tag.emptyOut_text h
  | stop tag => exact tag.emptyOut_text rest
  | comment body unended =>
    have hcomment := emptyOut_comment h
    simpa [markup, emptied] using hcomment
  | raw e =>
    by_cases hname : n = e.name
    · have helement := emptyOut_element n.unmarked (e.start.isStartTag (hname ▸ e.start_named))
        (hname ▸ e.unended) (e.stop.isEndTag_iff.2 (hname ▸ e.stop_named)) rest
      simpa [markup, emptied, hname, WrittenTag.text, WrittenStop.text, WrittenStop.opening]
        using helement
    · -- Neither tag is one of the name, and the content is emptied by itself.
      have hstart := e.start.opens_of_ne e.start_named hname
      have hstop : e.stop.name.folded ≠ n.1 := fun hstop =>
        hname (Subtype.ext (hstop.symm.trans e.stop_named))
      have hopen : Markup.leavesOpen n.chars e.content = true →
          findEndTag n.chars (e.stop.text ++ rest) = none := by
        intro hleaves
        exact WrittenStop.findEndTag_text hstop (h (by simp [leavesOpen, hname, hleaves]))
      have hparted : Parted (e.stop.text ++ rest) := by
        rintro c ⟨⟩
        exact .inl rfl
      have hcontent := emptyOut_append n.unmarked hparted hopen
      rw [e.stop.emptyOut_text] at hcontent
      have helement : emptyOut n.chars (e.start.text ++ (e.content ++ (e.stop.text ++ rest)))
          = e.start.text ++ emptyOut n.chars (e.content ++ (e.stop.text ++ rest)) :=
        e.start.emptyOut_text (by simp [hstart])
      rw [hcontent] at helement
      simpa [markup, emptied, hname] using helement

/-- No segment leaves an element of the name open that an end tag behind it closes. -/
def Apart (n : RawName) : List Segment → Prop
  | [] => True
  | s :: doc =>
    (s.leavesOpen n = true → findEndTag n.chars (markupOf doc) = none) ∧ Apart n doc

instance Apart.decidable (n : RawName) : (doc : List Segment) → Decidable (Apart n doc)
  | [] => inferInstanceAs (Decidable True)
  | s :: doc =>
    have := Apart.decidable n doc
    inferInstanceAs (Decidable ((s.leavesOpen n = true → findEndTag n.chars (markupOf doc) = none)
      ∧ Apart n doc))

/-- The document without the content of the elements of one name. -/
def emptiedOf (n : RawName) (doc : List Segment) : List Segment := doc.map (·.emptied n)

theorem emptyOut_markupOf {doc : List Segment} (h : Apart n doc) :
    emptyOut n.chars (markupOf doc) = markupOf (emptiedOf n doc) := by
  induction doc with
  | nil => exact emptyOut_nil n.chars
  | cons s doc ih =>
    have hdoc := Segment.emptyOut_markup h.1
    rw [ih h.2] at hdoc
    exact hdoc

/-! ## All names -/

/-- The document without the content of the elements of some names. -/
def bareOf (ns : List RawName) (doc : List Segment) : List Segment :=
  ns.foldl (fun doc n => emptiedOf n doc) doc

/-- For each name in its turn no segment leaves an element open that an end tag behind it closes,
once the elements of the names before have been emptied. -/
def Untangled : List RawName → List Segment → Prop
  | [], _ => True
  | n :: ns, doc => Apart n doc ∧ Untangled ns (emptiedOf n doc)

instance Untangled.decidable :
    (ns : List RawName) → (doc : List Segment) → Decidable (Untangled ns doc)
  | [], _ => inferInstanceAs (Decidable True)
  | n :: ns, doc =>
    have := Untangled.decidable ns (emptiedOf n doc)
    inferInstanceAs (Decidable (Apart n doc ∧ Untangled ns (emptiedOf n doc)))

theorem foldl_emptyOut {ns : List RawName} {doc : List Segment} (h : Untangled ns doc) :
    ns.foldl (fun cs n => emptyOut n.chars cs) (markupOf doc) = markupOf (bareOf ns doc) := by
  induction ns generalizing doc with
  | nil => rfl
  | cons n ns ih =>
    rw [List.foldl_cons, emptyOut_markupOf h.1, ih h.2]
    rfl

theorem tagsOf_emptiedOf (n : RawName) (doc : List Segment) :
    tagsOf (emptiedOf n doc) = tagsOf doc := by
  simp [tagsOf, emptiedOf, List.flatMap_map, Segment.tags_emptied]

theorem tagsOf_bareOf (ns : List RawName) (doc : List Segment) :
    tagsOf (bareOf ns doc) = tagsOf doc := by
  induction ns generalizing doc with
  | nil => rfl
  | cons n ns ih => exact (ih (emptiedOf n doc)).trans (tagsOf_emptiedOf n doc)

/-- An element stays empty, and one of a name that is taken out is. -/
theorem Segment.bare_foldl {e : RawElement} {ns : List RawName} (h : e.name ∈ ns ∨ e.content = []) :
    (ns.foldl (fun s n => s.emptied n) (raw e)).Bare := by
  induction ns generalizing e with
  | nil => exact h.resolve_left List.not_mem_nil
  | cons n ns ih =>
    refine ih ?_
    by_cases hname : n = e.name
    · exact .inr (if_pos hname)
    · rcases h with hmem | hcontent
      · exact .inl ((List.mem_cons.1 hmem).resolve_left (Ne.symm hname))
      · right
        show (if n = e.name then [] else emptyOut n.chars e.content) = []
        rw [if_neg hname, hcontent, emptyOut_nil]

theorem bareOf_eq_map (ns : List RawName) (doc : List Segment) :
    bareOf ns doc = doc.map fun s => ns.foldl (fun s n => s.emptied n) s := by
  induction ns generalizing doc with
  | nil => simp [bareOf]
  | cons n ns ih =>
    have hstep : bareOf (n :: ns) doc = bareOf ns (emptiedOf n doc) := rfl
    rw [hstep, ih, emptiedOf, List.map_map]
    rfl

/-- Once all names have been taken out nothing but markup is left. -/
theorem bare_bareOf {doc : List Segment} {s : Segment} (hs : s ∈ bareOf rawNames doc) : s.Bare := by
  rw [bareOf_eq_map, List.mem_map] at hs
  obtain ⟨s, -, rfl⟩ := hs
  cases s with
  | raw e => exact Segment.bare_foldl (.inl (List.mem_attach _ _))
  | text cs plain => exact trivial
  | start tag => exact trivial
  | stop tag => exact trivial
  | comment body unended => exact trivial

/-- A document whose segments are not tangled is read without a fault, and offers one element for
each of its start tags, those of its raw text elements among them, in their order. -/
theorem elements_of_untangled (doc : List Segment) (h : Untangled rawNames doc) :
    elements (String.ofList (markupOf doc))
      = .ok ((tagsOf doc).map fun tag => tag.said.offer) := by
  have hmarkup : withoutRawText (String.ofList (markupOf doc)).toList
      = markupOf (bareOf rawNames doc) := by
    rw [String.toList_ofList, withoutRawText_eq_foldl, foldl_emptyOut h]
  have helements := elements_of_bare hmarkup fun s hs => bare_bareOf hs
  rwa [tagsOf_bareOf] at helements

/-- A commented element, a tag whose name begins like that of another element, and raw text that
looks like markup. -/
theorem elements_of_untangled_style_guide :
    let guide : PlainName := ⟨"style-guide".toList, by decide, by decide⟩
    let script : PlainName := ⟨"Script".toList, by decide, by decide⟩
    let doc : List Segment := [.comment " <style></style> ".toList (by decide),
      .start ⟨guide, [], .none, false⟩,
      .raw ⟨⟨"script", by decide⟩, ⟨script, [], .none, false⟩, "a<b>".toList, ⟨script, .none⟩,
        by decide +kernel, by decide +kernel, by decide +kernel⟩]
    Untangled rawNames doc ∧ elements (String.ofList (markupOf doc))
      = .ok ((tagsOf doc).map fun tag => tag.said.offer) := by
  intro guide script doc
  have h : Untangled rawNames doc := by decide +kernel
  exact ⟨h, elements_of_untangled doc h⟩

/-- A tag whose name begins like that of a raw text element is taken for one, and what stands before
the next end tag of the element is lost. -/
theorem elements_lost_behind_hyphen :
    let name : PlainName := ⟨"script-x".toList, by decide, by decide⟩
    let paragraph : PlainName := ⟨"p".toList, by decide, by decide⟩
    let script : PlainName := ⟨"script".toList, by decide, by decide⟩
    let doc : List Segment := [.start ⟨name, [], .none, false⟩,
      .start ⟨paragraph, [], .none, false⟩,
      .raw ⟨⟨"script", by decide⟩, ⟨script, [], .none, false⟩, [], ⟨script, .none⟩,
        by decide +kernel, by decide +kernel, by decide +kernel⟩]
    markupOf doc = "<script-x><p><script></script>".toList ∧
      elements (String.ofList (markupOf doc)) = .ok [.ofTag "script-x"] ∧
      elements (String.ofList (markupOf doc))
        ≠ .ok ((tagsOf doc).map fun tag => tag.said.offer) := by
  intro name paragraph script doc
  have hfound : elements (String.ofList (markupOf doc)) = .ok [.ofTag "script-x"] := by
    decide +kernel
  refine ⟨by decide +kernel, hfound, ?_⟩
  rw [hfound]
  intro h
  have hlength := congrArg List.length (Except.ok.inj h)
  exact absurd hlength (by decide)

end StyleSieve.Markup
