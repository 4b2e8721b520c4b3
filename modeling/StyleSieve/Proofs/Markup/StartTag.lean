import Mathlib.Data.List.Induction
import StyleSieve.Markup.Document

/-!
# Start tags

A start tag as it is read: its name and its attributes, with their values as they are written; no
character reference is resolved in them. The elements of a document are made of its start tags, one
of each (`elements_eq`), and what an element offers is told by the attributes of its tag.
-/

namespace StyleSieve.Markup

open Text
open Selector (Compound)

/-- The name of an attribute in lower case. -/
def Attribute.folded (a : Attribute) : String := lowerCase (String.ofList a.name)

structure StartTag where
  name : String
  attributes : List Attribute
deriving Repr, DecidableEq

namespace StartTag

/-- The start tag with the given inside. -/
def read (content : List Char) : Option StartTag :=
  let inside := withoutSlash content
  let name := inside.takeWhile (!isTagSpace ·)
  (Markup.attributes (width inside) (inside.drop name.length)).toOption.map
    fun attributes => ⟨String.ofList name, attributes⟩

/-- The compound that a tag offers. -/
def element (tag : StartTag) : Compound :=
  tag.attributes.foldl withAttribute (.ofTag (lowerCase tag.name))

/-- The value of the first attribute of some name in lower case. -/
def valueOf (tag : StartTag) (name : String) : Option String :=
  (tag.attributes.find? (·.folded == name)).map fun a => String.ofList a.value

end StartTag

/-- The start tag of a piece that is one. -/
def Piece.startTag : Piece → Option StartTag
  | .tag content _ => StartTag.read content
  | .fault _ => none

/-- The start tags of a document in order. -/
def startTags (source : String) : List StartTag :=
  (pieces 0 (withoutMark (withoutRawText source.toList))).filterMap Piece.startTag

theorem elementOf_eq {content : List Char} {c : Compound} (h : elementOf content = .ok c) :
    ∃ tag, StartTag.read content = some tag ∧ c = tag.element := by
  obtain ⟨found, hfound⟩ : ∃ found, attributes (width (withoutSlash content))
      ((withoutSlash content).drop ((withoutSlash content).takeWhile (!isTagSpace ·)).length)
        = found := ⟨_, rfl⟩
  simp only [elementOf, hfound] at h
  simp only [StartTag.read, hfound]
  cases found with
  | error fault => cases h
  | ok as =>
    cases h
    exact ⟨_, rfl, rfl⟩

theorem elementsOf_eq {ps : List Piece} {found : List Compound} (h : elementsOf ps = .ok found) :
    found = (ps.filterMap Piece.startTag).map StartTag.element := by
  induction ps generalizing found with
  | nil =>
    cases h
    rfl
  | cons p ps ih =>
    cases p with
    | fault e => cases h
    | tag content stop =>
      rw [elementsOf] at h
      cases hc : elementOf content with
      | error fault => simp [hc] at h
      | ok c =>
        rw [hc] at h
        cases hrest : elementsOf ps with
        | error e => simp [hrest, Functor.map, Except.map] at h
        | ok rest =>
          simp only [hrest, Functor.map, Except.map, Except.ok.injEq] at h
          obtain ⟨tag, htag, rfl⟩ := elementOf_eq hc
          have hpiece : (Piece.tag content stop).startTag = some tag := htag
          rw [← h, List.filterMap_cons_some hpiece, List.map_cons, ← ih hrest]

/-- A document that can be read offers one element for each of its start tags. -/
theorem elements_eq {source : String} {found : List Compound} (h : elements source = .ok found) :
    found = (startTags source).map StartTag.element := by
  unfold elements at h
  revert h
  cases hfound : elementsOf (pieces 0 (withoutMark (withoutRawText source.toList))) with
  | error e => simp [hfound]
  | ok found' =>
    simp only [hfound]
    split
    · simp
    · rintro ⟨⟩
      exact elementsOf_eq hfound

/-! ## What an element offers -/

theorem withAttribute_of_id {c : Compound} {a : Attribute} (h : a.folded = "id") :
    withAttribute c a = { c with id := some (plainValue (String.ofList a.value)) } :=
  if_pos h

theorem withAttribute_of_class {c : Compound} {a : Attribute} (h : a.folded = "class") :
    withAttribute c a = { c with
      classes := (classesOf (String.ofList a.value)).foldl NameSet.insert c.classes } := by
  have hid : a.folded ≠ "id" := by simp [h]
  exact (if_neg hid).trans (if_pos h)

theorem withAttribute_of_other {c : Compound} {a : Attribute} (hid : a.folded ≠ "id")
    (hclass : a.folded ≠ "class") :
    withAttribute c a = { c with attributes := c.attributes.insert a.folded } :=
  (if_neg hid).trans (if_neg hclass)

theorem tag_foldl {as : List Attribute} {c : Compound} :
    (as.foldl withAttribute c).tag = c.tag := by
  induction as generalizing c with
  | nil => rfl
  | cons a as ih =>
    rw [List.foldl_cons, ih]
    by_cases hid : a.folded = "id"
    · rw [withAttribute_of_id hid]
    · by_cases hclass : a.folded = "class"
      · rw [withAttribute_of_class hclass]
      · rw [withAttribute_of_other hid hclass]

theorem id_withAttribute {c : Compound} {a : Attribute} (hid : a.folded ≠ "id") :
    (withAttribute c a).id = c.id := by
  by_cases hclass : a.folded = "class"
  · rw [withAttribute_of_class hclass]
  · rw [withAttribute_of_other hid hclass]

/-- Only the last identifier counts. -/
theorem id_foldl_append {before after : List Attribute} {a : Attribute} {c : Compound}
    (ha : a.folded = "id") (hafter : ∀ b ∈ after, b.folded ≠ "id") :
    ((before ++ a :: after).foldl withAttribute c).id
      = some (plainValue (String.ofList a.value)) := by
  have hrest : ∀ (bs : List Attribute) (c : Compound), (∀ b ∈ bs, b.folded ≠ "id") →
      (bs.foldl withAttribute c).id = c.id := by
    intro bs
    induction bs with
    | nil => exact fun _ _ => rfl
    | cons b bs ih =>
      intro c h
      rw [List.foldl_cons, ih _ fun x hx => h x (List.mem_cons_of_mem _ hx),
        id_withAttribute (h b List.mem_cons_self)]
  rw [List.foldl_append, List.foldl_cons, hrest after _ hafter, withAttribute_of_id ha]

theorem mem_classes_foldl {as : List Attribute} {c : Compound} {x : String} :
    x ∈ (as.foldl withAttribute c).classes ↔
      x ∈ c.classes ∨ ∃ a ∈ as, a.folded = "class" ∧ x ∈ classesOf (String.ofList a.value) := by
  induction as generalizing c with
  | nil => simp
  | cons a as ih =>
    have hfirst : x ∈ (withAttribute c a).classes ↔
        x ∈ c.classes ∨ a.folded = "class" ∧ x ∈ classesOf (String.ofList a.value) := by
      by_cases hid : a.folded = "id"
      · simp [withAttribute_of_id hid, hid]
      · by_cases hclass : a.folded = "class"
        · simp [withAttribute_of_class hclass, hclass, NameSet.mem_foldl_insert]
        · simp [withAttribute_of_other hid hclass, hclass]
    rw [List.foldl_cons, ih, hfirst]
    simp only [List.mem_cons, exists_eq_or_imp, or_assoc]

theorem mem_attributes_foldl {as : List Attribute} {c : Compound} {x : String} :
    x ∈ (as.foldl withAttribute c).attributes ↔
      x ∈ c.attributes ∨ ∃ a ∈ as, a.folded = x ∧ x ≠ "id" ∧ x ≠ "class" := by
  induction as generalizing c with
  | nil => simp
  | cons a as ih =>
    have hfirst : x ∈ (withAttribute c a).attributes ↔
        x ∈ c.attributes ∨ a.folded = x ∧ x ≠ "id" ∧ x ≠ "class" := by
      by_cases hid : a.folded = "id"
      · rw [withAttribute_of_id hid, hid]
        exact (or_iff_left fun h => h.2.1 h.1.symm).symm
      · by_cases hclass : a.folded = "class"
        · rw [withAttribute_of_class hclass, hclass]
          exact (or_iff_left fun h => h.2.2 h.1.symm).symm
        · rw [withAttribute_of_other hid hclass, NameSet.mem_insert, or_comm]
          refine or_congr_right ⟨?_, fun h => h.1.symm⟩
          rintro rfl
          exact ⟨rfl, hid, hclass⟩
    rw [List.foldl_cons, ih, hfirst]
    simp only [List.mem_cons, exists_eq_or_imp, or_assoc]

namespace StartTag

/-- The values of the attributes of some name in lower case. -/
def valuesOf (tag : StartTag) (name : String) : List String :=
  (tag.attributes.filter (·.folded == name)).map fun a => String.ofList a.value

/-- The compound that a tag offers, told field by field: the last identifier, the classes of all
lists of classes, and the names of the other attributes. -/
def offer (tag : StartTag) : Compound where
  tag := some (lowerCase tag.name)
  id := (tag.valuesOf "id").getLast?.map plainValue
  classes := .ofList ((tag.valuesOf "class").flatMap classesOf)
  attributes := .ofList ((tag.attributes.map Attribute.folded).filter (· ∉ ["id", "class"]))
  pseudoClasses := []
  pseudoElements := []

theorem valuesOf_concat {name folded : String} {as : List Attribute} {a : Attribute}
    (ha : a.folded = folded) : (StartTag.mk name (as ++ [a])).valuesOf folded
      = (StartTag.mk name as).valuesOf folded ++ [String.ofList a.value] := by
  simp [valuesOf, ha]

theorem valuesOf_concat_of_ne {name folded : String} {as : List Attribute} {a : Attribute}
    (ha : a.folded ≠ folded) :
    (StartTag.mk name (as ++ [a])).valuesOf folded = (StartTag.mk name as).valuesOf folded := by
  simp [valuesOf, ha]

/-- What is read attribute by attribute is what the tag offers. -/
theorem element_eq_offer (tag : StartTag) : tag.element = tag.offer := by
  obtain ⟨name, as⟩ := tag
  rw [element]
  induction as using List.reverseRecOn with
  | nil => rfl
  | append_singleton as a ih =>
    rw [List.foldl_append, List.foldl_cons, List.foldl_nil, ih]
    by_cases hid : a.folded = "id"
    · have hclass : a.folded ≠ "class" := by simp [hid]
      rw [withAttribute_of_id hid, offer, offer, valuesOf_concat hid, valuesOf_concat_of_ne hclass]
      simp [hid]
    · by_cases hclass : a.folded = "class"
      · rw [withAttribute_of_class hclass, offer, offer, valuesOf_concat_of_ne hid,
          valuesOf_concat hclass]
        simp [hclass, NameSet.ofList, List.foldl_append]
      · rw [withAttribute_of_other hid hclass, offer, offer, valuesOf_concat_of_ne hid,
          valuesOf_concat_of_ne hclass]
        simp [hid, hclass, NameSet.ofList, List.foldl_append]

end StartTag

end StyleSieve.Markup
