import Mathlib.Data.List.Infix
import StyleSieve.Proofs.Markup.OpenTag
import StyleSieve.Proofs.Markup.Written

/-!
# Documents as they are written

A document is written in segments: text, tags, comments, and elements of raw text with their
content. What it offers is one element for each start tag that is written, once nothing but markup
is left in it (`elements_of_bare`).
-/

namespace StyleSieve.Markup

open Text
open Selector (Compound)

/-! ## Names of raw text elements -/

theorem RawName.lower (n : RawName) : ∀ c ∈ n.chars, c.toNat < 0x80 ∧ c.toLower = c := by
  have h : ∀ name ∈ rawTextElements,
      (name.toList.all fun c => decide (c.toNat < 0x80 ∧ c.toLower = c)) = true := by
    decide +kernel
  intro c hc
  exact of_decide_eq_true (List.all_eq_true.1 (h n.1 n.2) c hc)

/-- ASCII characters are sent to others by the first run only. -/
theorem shiftBy_ascii {n : Nat} (h : n < 0x80) :
    shiftBy foldRuns n = shiftBy (foldRuns.take 1) n := by
  have hlater : ∀ r ∈ foldRuns.drop 1, 0x80 ≤ r.1 := by decide +kernel
  have hnone : shiftBy (foldRuns.drop 1) n = none := by
    refine List.findSome?_eq_none_iff.2 fun r hr => if_neg ?_
    have := hlater r hr
    omega
  have happend : shiftBy (foldRuns.take 1 ++ foldRuns.drop 1) n
      = (shiftBy (foldRuns.take 1) n).or (shiftBy (foldRuns.drop 1) n) := List.findSome?_append
  rwa [List.take_append_drop, hnone, Option.or_none] at happend

theorem toUpper_ascii : ∀ n < 0x80,
    ((shiftBy (foldRuns.take 1) n).map Char.ofNat).getD (Char.ofNat n) = (Char.ofNat n).toUpper ∧
      (Char.ofNat n).toLower.toUpper = (Char.ofNat n).toUpper ∧
      (Char.ofNat n).toUpper.toLower = (Char.ofNat n).toLower := by
  decide +kernel

theorem folded_ascii {c : Char} (h : c.toNat < 0x80) :
    folded c = c.toUpper ∧ c.toLower.toUpper = c.toUpper ∧ c.toUpper.toLower = c.toLower := by
  have hcases := toUpper_ascii c.toNat h
  rwa [← shiftBy_ascii h, Char.ofNat_toNat] at hcases

/-- ASCII characters agree up to case just when they are the same in lower case. -/
theorem sameLetter_iff {c d : Char} (hc : c.toNat < 0x80) (hd : d.toNat < 0x80) :
    sameLetter c d = true ↔ c.toLower = d.toLower := by
  obtain ⟨hc, hcUpper, hcLower⟩ := folded_ascii hc
  obtain ⟨hd, hdUpper, hdLower⟩ := folded_ascii hd
  rw [sameLetter, beq_iff_eq, hc, hd]
  constructor
  · intro h
    rw [← hcLower, h, hdLower]
  · intro h
    rw [← hcUpper, h, hdUpper]

theorem spells_iff {name spelled : List Char}
    (hname : ∀ c ∈ name, c.toNat < 0x80 ∧ c.toLower = c) (hspelled : ∀ c ∈ spelled, c.toNat < 0x80)
    (hlength : spelled.length = name.length) :
    spells name spelled = true ↔ spelled.map Char.toLower = name := by
  induction name generalizing spelled with
  | nil =>
    rw [List.length_nil, List.length_eq_zero_iff] at hlength
    simp [hlength, spells]
  | cons n ns ih =>
    cases spelled with
    | nil => cases hlength
    | cons c cs =>
      rw [List.forall_mem_cons] at hname hspelled
      rw [spells, Bool.and_eq_true, sameLetter_iff hname.1.1 hspelled.1, hname.1.2,
        ih hname.2 hspelled.2 (by simpa using hlength), List.map_cons, List.cons.injEq]
      exact and_congr_left fun _ => eq_comm

/-- Some name is a raw text element's in lower case just when it spells it. -/
theorem PlainName.folded_eq_iff (name : PlainName) (n : RawName) :
    name.folded = n.1 ↔ name.chars.length = n.chars.length ∧ spells n.chars name.chars = true := by
  have hascii : ∀ c ∈ name.chars, c.toNat < 0x80 := fun c hc => lt_of_isPlain (name.plain c hc)
  have hfolded : name.folded = n.1 ↔ name.chars.map Char.toLower = n.chars := by
    rw [PlainName.folded, lowerAscii, String.toList_ofList, RawName.chars, ← String.toList_inj,
      String.toList_ofList]
  rw [hfolded]
  constructor
  · intro h
    have hlength : name.chars.length = n.chars.length := by rw [← h, List.length_map]
    exact ⟨hlength, (spells_iff n.lower hascii hlength).2 h⟩
  · rintro ⟨hlength, h⟩
    exact (spells_iff n.lower hascii hlength).1 h

/-! ## Segments -/

/-- A raw text element with its tags, whose names may be in any letter case. Its own end tag is not
in the content. -/
structure RawElement where
  name : RawName
  start : WrittenTag
  content : List Char
  stop : WrittenStop
  start_named : start.name.folded = name.1
  stop_named : stop.name.folded = name.1
  unended : findEndTag name.chars content = none

inductive Segment where
  | text (cs : List Char) (plain : '<' ∉ cs)
  | start (tag : WrittenTag)
  | stop (tag : WrittenStop)
  | comment (body : List Char) (unended : ¬ ['-', '-', '>'] <:+: body)
  | raw (element : RawElement)

namespace Segment

/-- The segment as it is written. -/
def markup : Segment → List Char
  | text cs _ => cs
  | start tag => tag.text
  | stop tag => tag.text
  | comment body _ => '<' :: '!' :: '-' :: '-' :: (body ++ ['-', '-', '>'])
  | raw e => e.start.text ++ (e.content ++ e.stop.text)

/-- The start tags of the segment. What stands in a comment or in raw text is none. -/
def tags : Segment → List WrittenTag
  | start tag => [tag]
  | raw e => [e.start]
  | _ => []

/-- There is nothing in the segment that is not markup. -/
def Bare : Segment → Prop
  | raw e => e.content = []
  | _ => True

end Segment

/-- The document as it is written. -/
def markupOf (doc : List Segment) : List Char := doc.flatMap Segment.markup

/-- The start tags of a document in order. -/
def tagsOf (doc : List Segment) : List WrittenTag := doc.flatMap Segment.tags

/-! ## Reading -/

/-- A comment ends where it seems to. -/
theorem textUpTo_comment {body : List Char} (h : ¬ ['-', '-', '>'] <:+: body) :
    textUpTo endsComment [] ('-' :: '-' :: (body ++ ['-', '-']) ++ ['>'])
      = some ('-' :: '-' :: (body ++ ['-', '-'])) := by
  refine textUpTo_eq ?_ fun front back htext => ?_
  · simp [endsComment]
  · -- Hyphens before a bracket inside would end the comment there.
    rw [Bool.eq_false_iff]
    intro hends
    simp only [endsComment, List.append_nil, List.length_reverse, Bool.and_eq_true, beq_iff_eq,
      decide_eq_true_eq] at hends
    obtain ⟨hhyphens, hlength⟩ := hends
    obtain ⟨before, rfl⟩ : ∃ before, front = before ++ ['-', '-'] := by
      refine ⟨(front.reverse.drop 2).reverse, ?_⟩
      rw [← List.reverse_reverse front, ← List.take_append_drop 2 front.reverse, hhyphens]
      simp
    obtain ⟨c, d, inner, rfl⟩ : ∃ c d inner, before = c :: d :: inner := by
      rcases before with _ | ⟨c, _ | ⟨d, inner⟩⟩
      · simp at hlength
      · simp at hlength
      · exact ⟨c, d, inner, rfl⟩
    simp only [List.cons_append, List.cons.injEq, List.append_assoc, List.nil_append] at htext
    obtain ⟨rfl, rfl, htext⟩ := htext
    have hcut : body ++ ['-', '-'] = (inner ++ ['-', '-', '>']) ++ back := by simpa using htext
    rcases List.append_eq_append_iff.1 hcut with ⟨more, hinner, hmore⟩ | ⟨more, hbody, -⟩
    · by_cases hnil : more = []
      · rw [hnil, List.append_nil] at hinner
        exact h (hinner ▸ List.infix_append_right)
      · have hlast : more.getLast? = some '>' := by
          rw [← List.getLast?_append_of_ne_nil body hnil, ← hinner]
          simp
        have hmem : '>' ∈ ['-', '-'] :=
          hmore ▸ List.mem_append_left back (List.mem_of_getLast? hlast)
        exact absurd hmem (by decide)
    · exact h ⟨inner, more, hbody.symm⟩

theorem complete_comment {body : List Char} (h : ¬ ['-', '-', '>'] <:+: body) :
    Complete ('<' :: '!' :: '-' :: '-' :: (body ++ ['-', '-', '>'])) [] := by
  have hread := Complete.bang (.comment ('-' :: (body ++ ['-', '-']))) (textUpTo_comment h) rfl .nil
  simpa using hread

theorem Segment.complete {s : Segment} (h : s.Bare) :
    Complete s.markup (s.tags.map WrittenTag.inside) := by
  cases s with
  | text cs plain => exact .of_text plain
  | start tag => exact tag.complete
  | stop tag => exact tag.complete
  | comment body unended => exact complete_comment unended
  | raw e =>
    have hcontent : e.content = [] := h
    rw [Segment.markup, hcontent, List.nil_append]
    exact e.start.complete.append e.stop.complete

theorem complete_markupOf {doc : List Segment} (h : ∀ s ∈ doc, s.Bare) :
    Complete (markupOf doc) ((tagsOf doc).map WrittenTag.inside) := by
  induction doc with
  | nil => exact .nil
  | cons s doc ih =>
    rw [List.forall_mem_cons] at h
    have hdoc := (Segment.complete h.1).append (ih h.2)
    rwa [← List.map_append] at hdoc

theorem Segment.shut (s : Segment) : Shut s.markup := by
  cases s with
  | text cs plain => exact .of_not_mem plain
  | start tag => exact shut_concat ('<' :: tag.inside)
  | stop tag =>
    have h := shut_concat ('<' :: '/' :: (tag.name.chars ++ tag.gap.chars))
    simpa [Segment.markup, WrittenStop.text] using h
  | comment body _ =>
    have h := shut_concat ('<' :: '!' :: '-' :: '-' :: (body ++ ['-', '-']))
    simpa [Segment.markup] using h
  | raw e =>
    have h := shut_concat
      (e.start.text ++ (e.content ++ '<' :: '/' :: (e.stop.name.chars ++ e.stop.gap.chars)))
    simpa [Segment.markup, WrittenStop.text] using h

theorem shut_markupOf (doc : List Segment) : Shut (markupOf doc) := by
  induction doc with
  | nil => exact .of_not_mem (by simp [markupOf])
  | cons s doc ih => exact s.shut.append ih

/-- A document of which nothing but markup is left offers an element for each start tag. -/
theorem elements_of_bare {source : String} {doc : List Segment}
    (h : withoutRawText source.toList = markupOf doc) (hbare : ∀ s ∈ doc, s.Bare) :
    elements source = .ok ((tagsOf doc).map fun tag => tag.said.offer) := by
  have hfound : ((tagsOf doc).map WrittenTag.inside).map elementOf
      = ((tagsOf doc).map fun tag => tag.said.offer).map .ok := by
    simp [WrittenTag.elementOf_eq, StartTag.element_eq_offer]
  rw [elements, h]
  simp only [(complete_markupOf hbare).withoutMark.elementsOf_eq hfound,
    (shut_markupOf doc).openTagAt_eq]

end StyleSieve.Markup
