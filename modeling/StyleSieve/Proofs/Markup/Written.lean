import StyleSieve.Proofs.Markup.Construct
import StyleSieve.Proofs.Markup.RawText
import StyleSieve.Text.Ascii

/-!
# Written tags

Tags as they are commonly written: names are made of ASCII letters, digits and hyphens, and the
values of attributes stand between double quotes and have no angle bracket in them. Such a tag is
found whole, and the element it offers is that of the tag it stands for (`WrittenTag.elementOf_eq`).
Other ways to write a tag, such as values without quotes, are not told about here.
-/

namespace StyleSieve.Markup

open Text
open Css (startsWith)

/-! ## Plain names -/

/-- A character of plain names: an ASCII letter, a digit or a hyphen. -/
def isPlain (c : Char) : Bool := c.isAlphanum || c == '-'

theorem lt_of_isPlain {c : Char} (h : isPlain c = true) : c.toNat < 0x80 := by
  have hbelow : ∀ {last : UInt32}, c.val ≤ last → last.toNat < 0x80 → c.toNat < 0x80 :=
    fun hc hlast => Nat.lt_of_le_of_lt hc hlast
  rcases Bool.or_eq_true_iff.1 h with halphanum | hhyphen
  · rcases Bool.or_eq_true_iff.1 halphanum with halpha | hdigit
    · rcases Bool.or_eq_true_iff.1 halpha with hupper | hlower
      · exact hbelow (of_decide_eq_true hupper).2 (by decide)
      · exact hbelow (of_decide_eq_true (Bool.and_eq_true_iff.1 hlower).2) (by decide)
    · exact hbelow (of_decide_eq_true (Bool.and_eq_true_iff.1 hdigit).2) (by decide)
  · rw [beq_iff_eq] at hhyphen
    subst hhyphen
    decide

theorem isPlain_ascii : ∀ n < 0x80, isPlain (Char.ofNat n) = true →
    isTagSpace (Char.ofNat n) = false ∧ isBlank (Char.ofNat n) = false := by
  decide +kernel

/-- No plain character is white space. -/
theorem not_space_of_isPlain {c : Char} (h : isPlain c = true) :
    isTagSpace c = false ∧ isBlank c = false := by
  have hascii := isPlain_ascii c.toNat (lt_of_isPlain h)
  rw [Char.ofNat_toNat] at hascii
  exact hascii h

/-- What holds of each character of white space. -/
theorem of_isTagSpace {p : Char → Bool} (hp : [' ', '\t', '\r', '\n'].all p = true) {c : Char}
    (h : isTagSpace c = true) : p c = true := by
  simp only [isTagSpace, Bool.or_eq_true, beq_iff_eq] at h
  refine List.all_eq_true.1 hp c ?_
  rcases h with ((rfl | rfl) | rfl) | rfl <;> decide

theorem ne_of_isPlain {c d : Char} (h : isPlain c = true) (hd : isPlain d = false) : c ≠ d := by
  rintro rfl
  rw [h] at hd
  cases hd

/-- There is no angle bracket in the text. -/
def Unbracketed (cs : List Char) : Prop := '<' ∉ cs ∧ '>' ∉ cs

instance (cs : List Char) : Decidable (Unbracketed cs) :=
  inferInstanceAs (Decidable ('<' ∉ cs ∧ '>' ∉ cs))

@[simp] theorem unbracketed_append {cs ds : List Char} :
    Unbracketed (cs ++ ds) ↔ Unbracketed cs ∧ Unbracketed ds := by
  simp only [Unbracketed, List.mem_append, not_or]
  exact and_and_and_comm

/-- A name of plain characters. -/
structure PlainName where
  chars : List Char
  ne_nil : chars ≠ []
  all_plain : chars.all isPlain = true
deriving DecidableEq

/-- White space inside a tag. -/
structure Gap where
  chars : List Char
  all_space : chars.all isTagSpace = true
deriving DecidableEq

def Gap.none : Gap := ⟨[], rfl⟩

def Gap.one : Gap := ⟨[' '], rfl⟩

theorem Gap.space (gap : Gap) : ∀ c ∈ gap.chars, isTagSpace c = true :=
  List.all_eq_true.1 gap.all_space

namespace PlainName

theorem plain (name : PlainName) : ∀ c ∈ name.chars, isPlain c = true :=
  List.all_eq_true.1 name.all_plain

theorem not_mem (name : PlainName) {c : Char} (h : isPlain c = false) : c ∉ name.chars :=
  fun hc => ne_of_isPlain (name.plain c hc) h rfl

theorem unbracketed (name : PlainName) : Unbracketed name.chars :=
  ⟨name.not_mem rfl, name.not_mem rfl⟩

theorem exists_cons (name : PlainName) : ∃ c cs, name.chars = c :: cs ∧ isPlain c = true ∧
    ∀ d ∈ cs, isPlain d = true := by
  obtain ⟨c, cs, hname⟩ := List.exists_cons_of_ne_nil name.ne_nil
  have hplain := name.plain
  rw [hname, List.forall_mem_cons] at hplain
  exact ⟨c, cs, hname, hplain⟩

/-- The name in lower case. -/
def folded (name : PlainName) : String := lowerAscii (String.ofList name.chars)

end PlainName

theorem Gap.not_mem (gap : Gap) {c : Char} (h : isTagSpace c = false) : c ∉ gap.chars := by
  intro hc
  rw [gap.space c hc] at h
  cases h

theorem Gap.unbracketed (gap : Gap) : Unbracketed gap.chars := ⟨gap.not_mem rfl, gap.not_mem rfl⟩

/-! ## Tags -/

/-- An attribute as it is written: white space, a name, and a value between double quotes. -/
structure WrittenAttribute where
  gap : Gap
  apart : gap.chars ≠ []
  name : PlainName
  value : List Char
  unbracketed : Unbracketed value
  unquoted : '"' ∉ value

/-- A start tag as it is written. A slash may stand before its closing bracket. -/
structure WrittenTag where
  name : PlainName
  attributes : List WrittenAttribute
  gap : Gap
  slash : Bool

/-- An end tag as it is written. -/
structure WrittenStop where
  name : PlainName
  gap : Gap

namespace WrittenAttribute

def text (a : WrittenAttribute) : List Char :=
  a.gap.chars ++ (a.name.chars ++ '=' :: '"' :: (a.value ++ ['"']))

/-- The attribute that is written. -/
def said (a : WrittenAttribute) : Attribute := ⟨a.name.chars, a.value⟩

theorem unbracketed_text (a : WrittenAttribute) : Unbracketed a.text := by
  have hvalue : Unbracketed ('=' :: '"' :: (a.value ++ ['"'])) := by
    simpa [Unbracketed] using a.unbracketed
  exact unbracketed_append.2 ⟨a.gap.unbracketed, unbracketed_append.2 ⟨a.name.unbracketed, hvalue⟩⟩

end WrittenAttribute

namespace WrittenTag

/-- The text behind the name, without the slash. -/
def behindName (tag : WrittenTag) : List Char :=
  tag.attributes.flatMap WrittenAttribute.text ++ tag.gap.chars

/-- The text between the brackets. -/
def inside (tag : WrittenTag) : List Char :=
  tag.name.chars ++ (tag.behindName ++ if tag.slash then ['/'] else [])

def text (tag : WrittenTag) : List Char := '<' :: (tag.inside ++ ['>'])

/-- The tag that is written. -/
def said (tag : WrittenTag) : StartTag :=
  ⟨String.ofList tag.name.chars, tag.attributes.map WrittenAttribute.said⟩

theorem unbracketed_behindName (tag : WrittenTag) : Unbracketed tag.behindName := by
  rw [behindName]
  induction tag.attributes with
  | nil => exact tag.gap.unbracketed
  | cons a as ih =>
    rw [List.flatMap_cons, List.append_assoc]
    exact unbracketed_append.2 ⟨a.unbracketed_text, ih⟩

theorem unbracketed_inside (tag : WrittenTag) : Unbracketed tag.inside := by
  have hslash : Unbracketed (if tag.slash then ['/'] else []) := by cases tag.slash <;> decide
  exact unbracketed_append.2
    ⟨tag.name.unbracketed, unbracketed_append.2 ⟨tag.unbracketed_behindName, hslash⟩⟩

end WrittenTag

namespace WrittenStop

def text (tag : WrittenStop) : List Char :=
  '<' :: '/' :: (tag.name.chars ++ (tag.gap.chars ++ ['>']))

end WrittenStop

/-! ## Where a tag ends -/

/-- A text after which a tag goes on as if it had not been there. -/
def Passed (cs : List Char) : Prop :=
  ∀ rest, tagContent none (cs ++ rest) = cs ++ tagContent none rest

theorem Passed.append {cs ds : List Char} (h : Passed cs) (h' : Passed ds) : Passed (cs ++ ds) := by
  intro rest
  rw [List.append_assoc, h, h', List.append_assoc]

theorem passed_of_not_mem {cs : List Char} (hbracket : '>' ∉ cs)
    (hquote : cs.any isQuote = false) : Passed cs := by
  intro rest
  induction cs with
  | nil => rfl
  | cons c cs ih =>
    rw [List.mem_cons, not_or] at hbracket
    rw [List.any_cons, Bool.or_eq_false_iff] at hquote
    have hc : (c == '>') = false := beq_false_of_ne (Ne.symm hbracket.1)
    rw [List.cons_append, tagContent, hc, hquote.1]
    exact congrArg (c :: ·) (ih hbracket.2 hquote.2)

theorem passed_quoted {value : List Char} (h : '"' ∉ value) : Passed ('"' :: (value ++ ['"'])) := by
  have hinside : ∀ value rest, '"' ∉ value → tagContent (some '"') (value ++ '"' :: rest)
      = value ++ '"' :: tagContent none rest := by
    intro value rest hvalue
    induction value with
    | nil => simp [tagContent]
    | cons c value ih =>
      rw [List.mem_cons, not_or] at hvalue
      have hc : c ≠ '"' := Ne.symm hvalue.1
      simp [tagContent, hc, ih hvalue.2]
  intro rest
  have hquote : isQuote '"' = true := rfl
  simp [tagContent, hquote, hinside value rest h]

theorem PlainName.passed (name : PlainName) : Passed name.chars := by
  refine passed_of_not_mem name.unbracketed.2 (List.any_eq_false.2 fun c hc => ?_)
  have hplain := name.plain c hc
  have hquote := ne_of_isPlain hplain (d := '"') rfl
  have hsingle := ne_of_isPlain hplain (d := '\'') rfl
  simp [isQuote, hquote, hsingle]

theorem Gap.passed (gap : Gap) : Passed gap.chars := by
  refine passed_of_not_mem gap.unbracketed.2 (List.any_eq_false.2 fun c hc => ?_)
  have hquote := of_isTagSpace (p := fun c => !isQuote c) (by decide) (gap.space c hc)
  simpa using hquote

theorem WrittenAttribute.passed (a : WrittenAttribute) : Passed a.text := by
  have hequals : Passed ['='] := passed_of_not_mem (by decide) (by decide)
  have hvalue := passed_quoted a.unquoted
  exact a.gap.passed.append (a.name.passed.append (hequals.append hvalue))

theorem WrittenTag.passed (tag : WrittenTag) : Passed tag.inside := by
  have hattributes : ∀ as : List WrittenAttribute, Passed (as.flatMap WrittenAttribute.text) := by
    intro as
    induction as with
    | nil => exact fun rest => rfl
    | cons a as ih => exact a.passed.append ih
  have hslash : Passed (if tag.slash then ['/'] else []) := by
    cases tag.slash with
    | true => exact passed_of_not_mem (by decide) (by decide)
    | false => exact fun rest => rfl
  exact tag.name.passed.append (((hattributes tag.attributes).append tag.gap.passed).append hslash)

/-- A written tag is found whole. -/
theorem WrittenTag.complete (tag : WrittenTag) : Complete tag.text [tag.inside] := by
  obtain ⟨c, cs, hname, hc, -⟩ := tag.name.exists_cons
  have hopens : opensTag c = true := by
    have hbang := ne_of_isPlain hc (d := '!') rfl
    have hslash := ne_of_isPlain hc (d := '/') rfl
    have hmark := ne_of_isPlain hc (d := '?') rfl
    simp [opensTag, hbang, hslash, hmark]
  obtain ⟨more, hinside⟩ : ∃ more, tag.inside = c :: more := by
    rw [WrittenTag.inside, hname]
    exact ⟨_, rfl⟩
  have hcontent : tagContent none (tag.inside ++ ['>']) = tag.inside := by
    rw [tag.passed, tagContent]
    simp
  rw [text, hinside]
  rw [hinside] at hcontent
  exact .start hopens hcontent .nil

theorem WrittenStop.complete (tag : WrittenStop) : Complete tag.text [] := by
  have htext := unbracketed_append.2 ⟨tag.name.unbracketed, tag.gap.unbracketed⟩
  have h := Complete.stop htext.2 .nil
  rwa [List.append_assoc] at h

/-! ## What a tag offers -/

theorem takeWhile_isTagSpace (gap : Gap) {rest : List Char}
    (h : startsWith isTagSpace rest = false) :
    (gap.chars ++ rest).takeWhile isTagSpace = gap.chars := by
  rw [List.takeWhile_append_of_pos gap.space]
  cases rest with
  | nil => simp
  | cons c rest =>
    have hc : isTagSpace c = false := h
    simp [hc]

/-- An attribute is read before whatever follows it. -/
theorem attributes_text (size : Nat) (a : WrittenAttribute) (rest : List Char) :
    attributes size (a.text ++ rest) = (a.said :: ·) <$> attributes size rest := by
  obtain ⟨c, cs, hname, hc, hcs⟩ := a.name.exists_cons
  have hgap : ((a.text ++ rest).takeWhile isTagSpace).length = a.gap.chars.length := by
    rw [WrittenAttribute.text, List.append_assoc, takeWhile_isTagSpace]
    rw [hname]
    exact (not_space_of_isPlain hc).1
  have hbehind : (a.text ++ rest).drop a.gap.chars.length
      = c :: (cs ++ '=' :: '"' :: (a.value ++ '"' :: rest)) := by
    simp [WrittenAttribute.text, hname]
  have htake : (cs ++ '=' :: '"' :: (a.value ++ '"' :: rest)).takeWhile inName = cs := by
    rw [List.takeWhile_append_of_pos]
    · simp [inName]
    · intro d hd
      have hspace := not_space_of_isPlain (hcs d hd)
      have hequals := ne_of_isPlain (hcs d hd) (d := '=') rfl
      simp [inName, hspace.1, hequals]
  have hvalue : readValue size ('"' :: (a.value ++ '"' :: rest))
      = .ok (a.value, a.value.length + 2) := by
    have hquote : isTagSpace '"' = false ∧ isQuote '"' = true := ⟨rfl, rfl⟩
    simp [readValue, hquote, takeWhile_bne_append a.unquoted]
  rw [attributes]
  split
  · next h =>
    rw [hgap, hbehind] at h
    cases h
  · next d more h =>
    rw [hgap, hbehind, List.cons.injEq] at h
    obtain ⟨rfl, rfl⟩ := h
    have hequals : isTagSpace '=' = false := rfl
    simp [htake, hequals, hvalue, WrittenAttribute.said, hname]

theorem attributes_gap (size : Nat) (gap : Gap) : attributes size gap.chars = .ok [] := by
  have htake : (gap.chars ++ []).takeWhile isTagSpace = gap.chars := takeWhile_isTagSpace gap rfl
  rw [List.append_nil] at htake
  rw [attributes]
  split
  · rfl
  · next h =>
    rw [htake, List.drop_length] at h
    cases h

namespace WrittenTag

theorem attributes_behindName (size : Nat) (tag : WrittenTag) :
    Markup.attributes size tag.behindName = .ok (tag.attributes.map WrittenAttribute.said) := by
  rw [behindName]
  induction tag.attributes with
  | nil => exact attributes_gap size tag.gap
  | cons a as ih =>
    rw [List.flatMap_cons, List.append_assoc, attributes_text, ih]
    rfl

/-- A tag that has no slash at its end does not end in one. -/
theorem getLast?_ne_slash (tag : WrittenTag) :
    (tag.name.chars ++ tag.behindName).getLast? ≠ some '/' := by
  have hname : '/' ∉ tag.name.chars := tag.name.not_mem rfl
  have hgap : '/' ∉ tag.gap.chars := tag.gap.not_mem rfl
  intro hlast
  by_cases hempty : tag.gap.chars = []
  · rw [behindName, hempty, List.append_nil] at hlast
    rcases List.eq_nil_or_concat tag.attributes with hnone | ⟨as, a, has⟩
    · rw [hnone, List.flatMap_nil, List.append_nil] at hlast
      exact hname (List.mem_of_getLast? hlast)
    · -- The last character of an attribute is a quote.
      simp only [has, List.concat_eq_append, List.flatMap_append, List.flatMap_singleton,
        WrittenAttribute.text, ← List.cons_append, ← List.append_assoc,
        List.getLast?_concat] at hlast
      cases hlast
  · rw [behindName, ← List.append_assoc, List.getLast?_append_of_ne_nil _ hempty] at hlast
    exact hgap (List.mem_of_getLast? hlast)

theorem withoutSlash_inside (tag : WrittenTag) :
    withoutSlash tag.inside = tag.name.chars ++ tag.behindName := by
  unfold withoutSlash inside
  cases tag.slash with
  | true => simp [← List.append_assoc]
  | false =>
    have hlast := tag.getLast?_ne_slash
    simp only [Bool.false_eq_true, ↓reduceIte, List.append_nil]
    rw [if_neg hlast]

theorem startsWith_behindName (tag : WrittenTag) {p : Char → Bool}
    (h : ∀ c, isTagSpace c = true → p c = false) : startsWith p tag.behindName = false := by
  have hgap : ∀ gap : Gap, ∀ rest, gap.chars ≠ [] → startsWith p (gap.chars ++ rest) = false := by
    intro gap rest hne
    obtain ⟨c, cs, hcs⟩ := List.exists_cons_of_ne_nil hne
    rw [hcs]
    exact h c (gap.space c (by simp [hcs]))
  rw [behindName]
  cases tag.attributes with
  | nil =>
    by_cases hempty : tag.gap.chars = []
    · rw [hempty]
      rfl
    · simpa using hgap tag.gap [] hempty
  | cons a as =>
    rw [List.flatMap_cons, List.append_assoc, WrittenAttribute.text, List.append_assoc]
    exact hgap a.gap _ a.apart

/-- The element that a tag offers is that of the tag that is written. -/
theorem elementOf_eq (tag : WrittenTag) : elementOf tag.inside = .ok tag.said.element := by
  have hname : (tag.name.chars ++ tag.behindName).takeWhile (!isTagSpace ·) = tag.name.chars := by
    have hspace := tag.startsWith_behindName (p := (!isTagSpace ·)) (fun c hc => by simp [hc])
    rw [List.takeWhile_append_of_pos fun c hc => by
      simp [not_space_of_isPlain (tag.name.plain c hc)]]
    cases hbehind : tag.behindName with
    | nil => simp
    | cons c cs =>
      rw [hbehind] at hspace
      have hc : isTagSpace c = true := by simpa using hspace
      simp [hc]
  rw [elementOf, withoutSlash_inside, hname]
  simp only [List.drop_left, attributes_behindName]
  rfl

end WrittenTag

end StyleSieve.Markup
