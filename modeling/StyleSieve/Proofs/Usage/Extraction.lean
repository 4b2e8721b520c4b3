import StyleSieve.Proofs.Markup.Blanking
import StyleSieve.Usage.Nodes

/-!
# Extraction

A document of tags and text is read back as it is written: one node for each start tag, with what
the tag says. Such documents can be joined, and what is found in them is found one after the other.
Comments and the content of raw text elements are told about elsewhere.
-/

namespace StyleSieve.Usage

open Markup

/-- A segment is text or a tag that ends no raw text element. -/
def IsPlain : Segment → Prop
  | .text _ _ => True
  | .start _ => True
  | .stop tag => tag.name.folded ∉ rawTextElements
  | .comment _ _ => False
  | .raw _ => False

instance : DecidablePred IsPlain := fun s =>
  match s with
  | .text _ _ => inferInstanceAs (Decidable True)
  | .start _ => inferInstanceAs (Decidable True)
  | .stop tag => inferInstanceAs (Decidable (tag.name.folded ∉ rawTextElements))
  | .comment _ _ => inferInstanceAs (Decidable False)
  | .raw _ => inferInstanceAs (Decidable False)

variable {doc : List Segment}

theorem findEndTag_markupOf (h : ∀ s ∈ doc, IsPlain s) (n : RawName) :
    findEndTag n.chars (markupOf doc) = none := by
  induction doc with
  | nil => rfl
  | cons s doc ih =>
    rw [List.forall_mem_cons] at h
    have hdoc := ih h.2
    cases s with
    | text cs plain => exact findEndTag_text plain hdoc
    | start tag => exact tag.findEndTag_text hdoc
    | stop tag =>
      refine WrittenStop.findEndTag_text ?_ hdoc
      intro hname
      exact h.1 (hname ▸ n.2)
    | comment body unended => exact h.1.elim
    | raw e => exact h.1.elim

/-- Markup has one node for each of its start tags, and says of it what the tag says. -/
theorem elements_of_isPlain (h : ∀ s ∈ doc, IsPlain s) :
    elements (String.ofList (markupOf doc)) = .ok ((tagsOf doc).map fun tag => tag.said.offer) := by
  refine elements_of_bare ?_ fun s hs => ?_
  · rw [String.toList_ofList]
    exact withoutRawText_of_findEndTag (findEndTag_markupOf h)
  · have hplain := h s hs
    cases s with
    | raw e => exact hplain.elim
    | _ => exact trivial

/-- Markup is read back as it is written, and reading two documents joined is to merge what is found
in them. -/
theorem extract_markup (doc other : List Segment) (hdoc : ∀ s ∈ doc, IsPlain s)
    (hother : ∀ s ∈ other, IsPlain s) :
    elements (String.ofList (markupOf doc)) = .ok ((tagsOf doc).map fun tag => tag.said.offer) ∧
      elements (String.ofList (markupOf doc) ++ String.ofList (markupOf other))
        = Nodes.ofDocuments [String.ofList (markupOf doc), String.ofList (markupOf other)] := by
  have hjoined : ∀ s ∈ doc ++ other, IsPlain s := by
    intro s hs
    exact (List.mem_append.1 hs).elim (hdoc s) (hother s)
  have helements := elements_of_isPlain hdoc
  refine ⟨helements, ?_⟩
  have hmarkup : String.ofList (markupOf doc) ++ String.ofList (markupOf other)
      = String.ofList (markupOf (doc ++ other)) := by
    rw [markupOf, markupOf, markupOf, List.flatMap_append, String.ofList_append]
  rw [hmarkup, elements_of_isPlain hjoined]
  simp [Nodes.ofDocuments, helements, elements_of_isPlain hother, tagsOf, Functor.map, Except.map]

/-- Letter case, quotes around values, blanks between classes, and a tag with a slash. -/
theorem extract_markup_list_item :
    let item : PlainName := ⟨"LI".toList, by decide, by decide⟩
    let id : WrittenAttribute := ⟨.one, by decide, ⟨"ID".toList, by decide, by decide⟩,
      "'Main'".toList, by decide, by decide⟩
    let classes : WrittenAttribute := ⟨.one, by decide, ⟨"class".toList, by decide, by decide⟩,
      "a  'B' ''".toList, by decide, by decide⟩
    let data : WrittenAttribute := ⟨.one, by decide, ⟨"Data-x".toList, by decide, by decide⟩,
      "1".toList, by decide, by decide⟩
    let doc : List Segment := [.start ⟨item, [id, classes, data], .none, false⟩,
      .text "a>b".toList (by decide), .stop ⟨item, .one⟩]
    let other : List Segment := [.start ⟨⟨"br".toList, by decide, by decide⟩, [], .one, true⟩]
    markupOf (doc ++ other)
        = "<LI ID=\"'Main'\" class=\"a  'B' ''\" Data-x=\"1\">a>b</LI ><br />".toList ∧
      elements (String.ofList (markupOf doc) ++ String.ofList (markupOf other))
        = .ok [⟨some "li", some "main", .ofList ["a", "b"], .ofList ["data-x"], [], []⟩,
            .ofTag "br"] := by
  intro item id classes data doc other
  obtain ⟨hdoc, hjoined⟩ := extract_markup doc other (by decide +kernel) (by decide +kernel)
  have hother := (extract_markup other [] (by decide +kernel) (by decide +kernel)).1
  refine ⟨by decide +kernel, ?_⟩
  rw [hjoined]
  simp only [Nodes.ofDocuments, hdoc, hother]
  decide +kernel

end StyleSieve.Usage
