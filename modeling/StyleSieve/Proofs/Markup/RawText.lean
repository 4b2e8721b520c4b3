import StyleSieve.Markup.RawText
import StyleSieve.Proofs.Text.Words

/-!
# What is taken out of a document

The tags of raw text elements by their shape, and the text that is left once the content of such
elements has been taken out. Two texts can be emptied one after the other unless the first leaves an
element open that the second closes (`emptyOut_append`), and nothing that ends at a closing bracket
is new in what is left (`Thinned.exists_of_ended`).
-/

namespace StyleSieve.Markup

open Text
open Css (startsWith)

/-! ## Names -/

/-- Characters that stand before and behind the names of tags and at the ends of comments. -/
def marks : List Char := ['<', '>', '/', '-', '!', ' ', '\t', '\r', '\n']

/-- No character of the name is a mark, whatever the letter case. -/
def Unmarked (name : List Char) : Prop := ∀ n ∈ name, ∀ c ∈ marks, sameLetter n c = false

instance (name : List Char) : Decidable (Unmarked name) :=
  decidable_of_iff ((name.all fun n => marks.all fun c => !sameLetter n c) = true)
    (by simp [Unmarked])

variable {name : List Char}

theorem length_le_of_spells {cs : List Char} (h : spells name cs = true) :
    name.length ≤ cs.length := by
  induction name generalizing cs with
  | nil => simp
  | cons n ns ih =>
    cases cs with
    | nil => cases h
    | cons c cs =>
      rw [spells, Bool.and_eq_true] at h
      simpa using ih h.2

theorem spells_append {spelled : List Char} (h : spelled.length = name.length)
    (rest : List Char) : spells name (spelled ++ rest) = spells name spelled := by
  induction name generalizing spelled with
  | nil =>
    rw [List.length_nil, List.length_eq_zero_iff] at h
    simp [spells]
  | cons n ns ih =>
    cases spelled with
    | nil => cases h
    | cons c cs =>
      rw [List.cons_append, spells, spells, ih (by simpa using h)]

/-- A name is not spelled across a character that no name has. -/
theorem spells_append_of_head {cs rest : List Char}
    (h : ∀ c ∈ rest.head?, ∀ n ∈ name, sameLetter n c = false) :
    spells name (cs ++ rest) = spells name cs := by
  induction name generalizing cs with
  | nil => cases cs <;> rfl
  | cons n ns ih =>
    cases cs with
    | nil =>
      cases rest with
      | nil => rfl
      | cons c rest =>
        have hc := h c rfl n List.mem_cons_self
        simp [spells, hc]
    | cons c cs =>
      rw [List.cons_append, spells, spells,
        ih fun c hc n hn => h c hc n (List.mem_cons_of_mem _ hn)]

theorem not_mem_of_spells (hname : Unmarked name) {spelled : List Char}
    (hlength : spelled.length = name.length) (h : spells name spelled = true) {c : Char}
    (hc : c ∈ marks) : c ∉ spelled := by
  induction name generalizing spelled with
  | nil =>
    rw [List.length_nil, List.length_eq_zero_iff] at hlength
    simp [hlength]
  | cons n ns ih =>
    cases spelled with
    | nil => simp
    | cons d ds =>
      rw [spells, Bool.and_eq_true] at h
      rw [List.mem_cons, not_or]
      constructor
      · rintro rfl
        rw [hname n List.mem_cons_self c hc] at h
        exact Bool.false_ne_true h.1
      · exact ih (fun n hn => hname n (List.mem_cons_of_mem _ hn)) (by simpa using hlength) h.2

/-! ## Tags by their shape -/

/-- The text is that of a start tag of the name, without its closing bracket. -/
def IsStartTag (name text : List Char) : Prop :=
  ∃ spelled inside, text = '<' :: (spelled ++ inside) ∧ spelled.length = name.length ∧
    spells name spelled = true ∧ startsWith isWord inside = false ∧ '>' ∉ inside

/-- The text is that of an end tag of the name, without its closing bracket. -/
def IsEndTag (name text : List Char) : Prop :=
  ∃ spelled gap, text = '<' :: '/' :: (spelled ++ gap) ∧ spelled.length = name.length ∧
    spells name spelled = true ∧ ∀ c ∈ gap, isBlank c = true

theorem IsStartTag.not_mem (hname : Unmarked name) {text : List Char} (h : IsStartTag name text) :
    '>' ∉ text := by
  obtain ⟨spelled, inside, rfl, hlength, hspells, -, hinside⟩ := h
  have hspelled : '>' ∉ spelled := not_mem_of_spells hname hlength hspells (by decide)
  simp [hspelled, hinside]

theorem IsEndTag.not_mem (hname : Unmarked name) {text : List Char} (h : IsEndTag name text) :
    '>' ∉ text := by
  obtain ⟨spelled, gap, rfl, hlength, hspells, hgap⟩ := h
  have hspelled : '>' ∉ spelled := not_mem_of_spells hname hlength hspells (by decide)
  have hblank : '>' ∉ gap := fun hmem => absurd (hgap _ hmem) (by decide)
  simp [hspelled, hblank]

/-- A text that spells a name, cut behind the name. -/
theorem exists_spelled {cs : List Char} (h : spells name cs = true) :
    ∃ spelled after, cs = spelled ++ after ∧ spelled.length = name.length ∧
      spells name spelled = true := by
  have hlength : (cs.take name.length).length = name.length := by
    rw [List.length_take, Nat.min_eq_left (length_le_of_spells h)]
  refine ⟨cs.take name.length, cs.drop name.length, (List.take_append_drop _ _).symm, hlength, ?_⟩
  rwa [← spells_append hlength (cs.drop name.length), List.take_append_drop]

theorem drop_spelled {spelled : List Char} (h : spelled.length = name.length) (rest : List Char) :
    (spelled ++ rest).drop name.length = rest := by
  rw [← h, List.drop_left]

theorem startTagLength_of_isStartTag {text : List Char} (h : IsStartTag name text)
    (rest : List Char) : startTagLength name (text ++ '>' :: rest) = some text.length := by
  obtain ⟨spelled, inside, rfl, hlength, hspells, hword, hinside⟩ := h
  have hstarts : startsWith isWord (inside ++ '>' :: rest) = false := by
    cases inside with
    | nil => exact (by decide : isWord '>' = false)
    | cons c inside => exact hword
  simp only [List.cons_append, List.append_assoc, startTagLength, drop_spelled hlength, hstarts,
    takeWhile_bne_append hinside, spells_append hlength, hspells]
  simp [hlength]

theorem isStartTag_of_startTagLength {cs : List Char} {n : Nat}
    (h : startTagLength name cs = some n) :
    ∃ text rest, cs = text ++ '>' :: rest ∧ IsStartTag name text ∧ text.length = n := by
  unfold startTagLength at h
  split at h
  · next cs =>
    simp only [Option.ite_none_right_eq_some, Bool.and_eq_true, Bool.not_eq_true',
      decide_eq_true_eq, Option.some.injEq] at h
    obtain ⟨⟨⟨hspells, hword⟩, hmore⟩, rfl⟩ := h
    obtain ⟨spelled, after, rfl, hlength, hspelled⟩ := exists_spelled hspells
    rw [drop_spelled hlength] at hword hmore ⊢
    obtain ⟨inside, rest, rfl, hinside⟩ :=
      List.eq_append_cons_of_mem (length_takeWhile_bne_lt_iff.1 hmore)
    have hstarts : startsWith isWord inside = false := by
      cases inside with
      | nil => rfl
      | cons c inside => exact hword
    refine ⟨'<' :: (spelled ++ inside), rest, by simp,
      ⟨spelled, inside, rfl, hlength, hspelled, hstarts, hinside⟩, ?_⟩
    rw [takeWhile_bne_append hinside]
    simp [hlength]
  · cases h

theorem endTagLength_of_isEndTag {text : List Char} (h : IsEndTag name text) (rest : List Char) :
    endTagLength name (text ++ '>' :: rest) = some (text.length + 1) := by
  obtain ⟨spelled, gap, rfl, hlength, hspells, hgap⟩ := h
  have hblank : (gap ++ '>' :: rest).takeWhile isBlank = gap := by
    rw [List.takeWhile_append_of_pos hgap, List.takeWhile_cons_of_neg (by decide), List.append_nil]
  simp only [List.cons_append, List.append_assoc, endTagLength, drop_spelled hlength, hblank,
    List.drop_left, spells_append hlength, hspells]
  simp [hlength]
  omega

theorem isEndTag_of_endTagLength {cs : List Char} {n : Nat} (h : endTagLength name cs = some n) :
    ∃ text rest, cs = text ++ '>' :: rest ∧ IsEndTag name text ∧ text.length + 1 = n := by
  unfold endTagLength at h
  split at h
  · next cs =>
    simp only [Option.ite_none_right_eq_some, Bool.and_eq_true, Option.some.injEq] at h
    obtain ⟨⟨hspells, hclosed⟩, rfl⟩ := h
    obtain ⟨spelled, after, rfl, hlength, hspelled⟩ := exists_spelled hspells
    rw [drop_spelled hlength] at hclosed ⊢
    obtain ⟨gap, hgap⟩ : ∃ gap, gap = after.takeWhile isBlank := ⟨_, rfl⟩
    rw [← hgap] at hclosed ⊢
    cases hrest : after.drop gap.length with
    | nil => simp [hrest] at hclosed
    | cons c rest =>
      obtain rfl : c = '>' := by simpa [hrest] using hclosed
      have hafter : after = gap ++ '>' :: rest := by
        rw [← hrest, hgap]
        exact (List.prefix_iff_eq_append.1 (List.takeWhile_prefix _)).symm
      refine ⟨'<' :: '/' :: (spelled ++ gap), rest, by simp [hafter],
        ⟨spelled, gap, rfl, hlength, hspelled, fun c hc => ?_⟩, ?_⟩
      · exact List.mem_takeWhile_imp (hgap ▸ hc)
      · simp [hlength]
        omega
  · cases h

theorem endTagLength_eq_some_iff {cs : List Char} {n : Nat} :
    endTagLength name cs = some n ↔
      ∃ text rest, cs = text ++ '>' :: rest ∧ IsEndTag name text ∧ text.length + 1 = n := by
  constructor
  · exact isEndTag_of_endTagLength
  · rintro ⟨text, rest, rfl, h, rfl⟩
    exact endTagLength_of_isEndTag h rest

/-- A text begins a start tag of the name, whether it is ended or not. -/
def opens (name : List Char) : List Char → Bool
  | '<' :: cs => spells name cs && !startsWith isWord (cs.drop name.length)
  | _ => false

theorem opens_of_isStartTag {text : List Char} (h : IsStartTag name text) (rest : List Char) :
    opens name (text ++ '>' :: rest) = true := by
  obtain ⟨spelled, inside, rfl, hlength, hspells, hword, -⟩ := h
  have hstarts : startsWith isWord (inside ++ '>' :: rest) = false := by
    cases inside with
    | nil => exact (by decide : isWord '>' = false)
    | cons c inside => exact hword
  simp only [List.cons_append, List.append_assoc, opens, drop_spelled hlength, hstarts,
    spells_append hlength, hspells]
  rfl

/-- An element of the name begins in the text and does not end there. -/
def leavesOpen (name : List Char) : List Char → Bool
  | [] => false
  | c :: cs =>
    if opens name (c :: cs) then
      match startTagLength name (c :: cs) with
      | none => true
      | some n =>
        match findEndTag name (cs.drop n) with
        | none => true
        | some (content, stop) => leavesOpen name (cs.drop (n + content + stop))
    else leavesOpen name cs
termination_by cs => cs.length
decreasing_by all_goals (simp; try omega)

/-! ## Two texts -/

/-- A text that no tag before it reaches into. -/
def Parted (rest : List Char) : Prop := ∀ c ∈ rest.head?, c = '<' ∨ c = '-'

theorem Parted.spells_append (hname : Unmarked name) {rest : List Char} (h : Parted rest)
    (cs : List Char) : spells name (cs ++ rest) = spells name cs := by
  refine spells_append_of_head fun c hc n hn => hname n hn c ?_
  rcases h c hc with rfl | rfl <;> decide

theorem opens_append (hname : Unmarked name) {cs rest : List Char} (hcs : cs ≠ [])
    (h : Parted rest) : opens name (cs ++ rest) = opens name cs := by
  cases cs with
  | nil => exact absurd rfl hcs
  | cons c cs =>
    by_cases hc : c = '<'
    · subst hc
      rw [List.cons_append, opens, opens, h.spells_append hname]
      by_cases hspells : spells name cs = true
      · obtain ⟨spelled, after, rfl, hlength, -⟩ := exists_spelled hspells
        rw [List.append_assoc, drop_spelled hlength, drop_spelled hlength]
        cases after with
        | cons d after => rfl
        | nil =>
          cases rest with
          | nil => rfl
          | cons d rest =>
            rcases h d rfl with rfl | rfl
            · rw [List.nil_append, Css.startsWith_cons, (by decide : isWord '<' = false)]
              rfl
            · rw [List.nil_append, Css.startsWith_cons, (by decide : isWord '-' = false)]
              rfl
      · simp [hspells]
    · simp [opens, hc]

theorem endTagLength_append (hname : Unmarked name) {cs rest : List Char} (hcs : cs ≠ [])
    (h : Parted rest) : endTagLength name (cs ++ rest) = endTagLength name cs := by
  refine Option.ext fun n => ?_
  rw [endTagLength_eq_some_iff, endTagLength_eq_some_iff]
  constructor
  · rintro ⟨text, after, heq, htag, rfl⟩
    rcases List.append_eq_append_iff.1 heq with ⟨more, rfl, hrest⟩ | ⟨more, rfl, hafter⟩
    · -- A tag that reaches into the rest would have its first character.
      exfalso
      obtain ⟨spelled, gap, htext, hlength, hspells, hgap⟩ := htag
      obtain ⟨c, cs', rfl⟩ := List.exists_cons_of_ne_nil hcs
      rw [List.cons_append, List.cons.injEq] at htext
      obtain ⟨-, htext⟩ := htext
      cases more with
      | nil =>
        rw [List.nil_append] at hrest
        rcases h '>' (by rw [hrest]; rfl) with h | h <;> cases h
      | cons d more =>
        have hd : d ∈ '/' :: (spelled ++ gap) := by rw [← htext]; simp
        have hhead : d = '<' ∨ d = '-' := h d (by rw [hrest]; rfl)
        have hspelled : d ∉ spelled := by
          refine not_mem_of_spells hname hlength hspells ?_
          rcases hhead with rfl | rfl <;> decide
        rcases List.mem_cons.1 hd with rfl | hd
        · rcases hhead with h | h <;> cases h
        · have hblank := hgap d ((List.mem_append.1 hd).resolve_left hspelled)
          rcases hhead with rfl | rfl <;> exact absurd hblank (by decide)
    · cases more with
      | nil =>
        rw [List.nil_append] at hafter
        rcases h '>' (by rw [← hafter]; rfl) with h | h <;> cases h
      | cons d more =>
        rw [List.cons_append, List.cons.injEq] at hafter
        obtain ⟨rfl, -⟩ := hafter
        exact ⟨text, more, rfl, htag, rfl⟩
  · rintro ⟨text, after, rfl, htag, rfl⟩
    exact ⟨text, after ++ rest, by simp, htag, rfl⟩

theorem findEndTag_append (hname : Unmarked name) {rest : List Char} (h : Parted rest)
    (cs : List Char) : findEndTag name (cs ++ rest)
      = (findEndTag name cs).or ((findEndTag name rest).map fun t => (t.1 + cs.length, t.2)) := by
  induction cs with
  | nil => cases hfind : findEndTag name rest <;> simp [findEndTag, hfind]
  | cons c cs ih =>
    have hlength : endTagLength name (c :: (cs ++ rest)) = endTagLength name (c :: cs) :=
      endTagLength_append hname (List.cons_ne_nil c cs) h
    rw [List.cons_append, findEndTag, findEndTag, hlength]
    cases endTagLength name (c :: cs) with
    | some n => rfl
    | none =>
      rw [ih]
      cases findEndTag name cs with
      | some t => rfl
      | none => cases findEndTag name rest <;> simp [Nat.add_assoc]

theorem findEndTag_right {cs rest : List Char} (h : findEndTag name (cs ++ rest) = none) :
    findEndTag name rest = none := by
  induction cs with
  | nil => exact h
  | cons c cs ih =>
    rw [List.cons_append, findEndTag] at h
    split at h
    · cases h
    · exact ih (by simpa using h)

theorem endTagLength_left {cs rest : List Char} (h : endTagLength name (cs ++ rest) = none) :
    endTagLength name cs = none := by
  rw [Option.eq_none_iff_forall_ne_some] at h ⊢
  intro n hn
  obtain ⟨text, after, rfl, htag, rfl⟩ := endTagLength_eq_some_iff.1 hn
  exact h _ (endTagLength_eq_some_iff.2 ⟨text, after ++ rest, by simp, htag, rfl⟩)

/-- The first end tag behind a text that has none. -/
theorem findEndTag_of_isEndTag (hname : Unmarked name) {content text : List Char}
    (hcontent : findEndTag name content = none) (h : IsEndTag name text) (rest : List Char) :
    findEndTag name (content ++ (text ++ '>' :: rest))
      = some (content.length, text.length + 1) := by
  have hfirst : findEndTag name (text ++ '>' :: rest) = some (0, text.length + 1) := by
    have hlength := endTagLength_of_isEndTag h rest
    obtain ⟨spelled, gap, rfl, -⟩ := h
    rw [List.cons_append] at hlength ⊢
    rw [findEndTag, hlength]
  have hparted : Parted (text ++ '>' :: rest) := by
    obtain ⟨spelled, gap, rfl, -⟩ := h
    rintro c ⟨⟩
    exact .inl rfl
  rw [findEndTag_append hname hparted, hcontent, hfirst]
  simp

theorem isEndTag_of_findEndTag {cs : List Char} {t : Nat × Nat} (h : findEndTag name cs = some t) :
    ∃ content text rest, cs = content ++ (text ++ '>' :: rest) ∧ IsEndTag name text ∧
      findEndTag name content = none ∧ t = (content.length, text.length + 1) := by
  induction cs generalizing t with
  | nil => cases h
  | cons c cs ih =>
    rw [findEndTag] at h
    split at h
    · next n hn =>
      cases h
      obtain ⟨text, rest, heq, htag, rfl⟩ := endTagLength_eq_some_iff.1 hn
      exact ⟨[], text, rest, heq, htag, rfl, rfl⟩
    · next hnone =>
      obtain ⟨t', ht', rfl⟩ := Option.map_eq_some_iff.1 h
      obtain ⟨content, text, rest, rfl, htag, hcontent, rfl⟩ := ih ht'
      refine ⟨c :: content, text, rest, rfl, htag, ?_, rfl⟩
      rw [← List.cons_append] at hnone
      rw [findEndTag, endTagLength_left hnone, hcontent]
      rfl

/-! ## What is left -/

theorem emptyOut_nil (name : List Char) : emptyOut name [] = [] := by
  rw [emptyOut]

/-- A character that begins no element with an end stays. -/
theorem emptyOut_cons {c : Char} {cs : List Char}
    (h : ∀ n, startTagLength name (c :: cs) = some n → findEndTag name (cs.drop n) = none) :
    emptyOut name (c :: cs) = c :: emptyOut name cs := by
  rw [emptyOut]
  cases hstart : startTagLength name (c :: cs) with
  | none => rfl
  | some n => simp only [h n hstart]

theorem drop_succ_length (text rest : List Char) (c : Char) :
    (text ++ c :: rest).drop (text.length + 1) = rest :=
  List.drop_length_add_append 1

theorem take_succ_length (text rest : List Char) (c : Char) :
    (text ++ c :: rest).take (text.length + 1) = text ++ [c] :=
  List.take_length_add_append 1

theorem drop_of_eq_append {c d : Char} {cs text rest : List Char}
    (h : c :: cs = text ++ d :: rest) : cs.drop text.length = rest := by
  rw [← List.drop_succ_cons (a := c), h, drop_succ_length]

/-- Nothing is taken out of a text without an end tag. -/
theorem emptyOut_of_findEndTag {cs : List Char} (h : findEndTag name cs = none) :
    emptyOut name cs = cs := by
  induction cs with
  | nil => exact emptyOut_nil name
  | cons c cs ih =>
    have hcs : findEndTag name cs = none := by
      rw [← List.singleton_append] at h
      exact findEndTag_right h
    rw [emptyOut_cons, ih hcs]
    intro n hn
    rw [← List.take_append_drop n cs] at hcs
    exact findEndTag_right hcs

theorem emptyOut_text {text : List Char} (h : '<' ∉ text) (rest : List Char) :
    emptyOut name (text ++ rest) = text ++ emptyOut name rest := by
  induction text with
  | nil => rfl
  | cons c text ih =>
    rw [List.mem_cons, not_or] at h
    rw [List.cons_append, emptyOut_cons, ih h.2]
    · rfl
    · intro n hn
      obtain ⟨tag, after, heq, ⟨spelled, inside, rfl, -⟩, -⟩ := isStartTag_of_startTagLength hn
      rw [List.cons_append, List.cons.injEq] at heq
      exact absurd heq.1.symm h.1

/-- Of an element nothing stays but its tags. -/
theorem emptyOut_element (hname : Unmarked name) {start content stop : List Char}
    (hstart : IsStartTag name start) (hcontent : findEndTag name content = none)
    (hstop : IsEndTag name stop) (rest : List Char) :
    emptyOut name (start ++ '>' :: (content ++ (stop ++ '>' :: rest)))
      = start ++ '>' :: (stop ++ '>' :: emptyOut name rest) := by
  have hlength := startTagLength_of_isStartTag hstart (content ++ (stop ++ '>' :: rest))
  have hfind := findEndTag_of_isEndTag hname hcontent hstop rest
  obtain ⟨spelled, inside, rfl, -⟩ := hstart
  generalize spelled ++ inside = opening at hlength ⊢
  rw [List.cons_append] at hlength ⊢
  have hbehind := drop_succ_length opening (content ++ (stop ++ '>' :: rest)) '>'
  rw [emptyOut, hlength, List.length_cons]
  simp only [hbehind, hfind]
  simp only [← List.drop_drop, hbehind, take_succ_length, List.drop_left, List.drop_succ_cons,
    List.drop_zero, List.cons_append, List.append_assoc, List.nil_append]

/-- What is left of a text, told by its elements. A character stays if it begins no element, or one
that has no end. -/
inductive Emptied (name : List Char) : List Char → List Char → Prop where
  | nil : Emptied name [] []
  | stays {c : Char} {cs out : List Char} :
      (∀ n, startTagLength name (c :: cs) = some n → findEndTag name (cs.drop n) = none) →
      Emptied name cs out → Emptied name (c :: cs) (c :: out)
  | element {start content stop rest out : List Char} : IsStartTag name start →
      findEndTag name content = none → IsEndTag name stop → Emptied name rest out →
      Emptied name (start ++ '>' :: (content ++ (stop ++ '>' :: rest)))
        (start ++ '>' :: (stop ++ '>' :: out))

theorem emptied_emptyOut (hname : Unmarked name) (cs : List Char) :
    Emptied name cs (emptyOut name cs) := by
  induction hn : cs.length using Nat.strongRecOn generalizing cs with
  | ind n ih =>
    cases cs with
    | nil =>
      rw [emptyOut_nil]
      exact .nil
    | cons c cs =>
      by_cases hstays : ∀ m, startTagLength name (c :: cs) = some m →
          findEndTag name (cs.drop m) = none
      · rw [emptyOut_cons hstays]
        exact .stays hstays (ih cs.length (by rw [← hn]; simp) cs rfl)
      · simp only [not_forall] at hstays
        obtain ⟨m, hstart, hfind⟩ := hstays
        obtain ⟨t, ht⟩ := Option.ne_none_iff_exists'.1 hfind
        obtain ⟨start, behind, heq, hisStart, rfl⟩ := isStartTag_of_startTagLength hstart
        rw [drop_of_eq_append heq] at ht
        obtain ⟨content, stop, rest, rfl, hisEnd, hcontent, -⟩ := isEndTag_of_findEndTag ht
        have hshorter : rest.length < n := by
          rw [← hn, heq]
          simp
          omega
        rw [heq, emptyOut_element hname hisStart hcontent hisEnd]
        exact .element hisStart hcontent hisEnd (ih rest.length hshorter rest rfl)

theorem leavesOpen_cons_of_not_opens {c : Char} {cs : List Char}
    (h : opens name (c :: cs) = false) : leavesOpen name (c :: cs) = leavesOpen name cs := by
  rw [leavesOpen, h]
  rfl

/-- An element that is not ended in the text is left open. -/
theorem leavesOpen_of_opens {c : Char} {cs : List Char} (hopens : opens name (c :: cs) = true)
    (h : ∀ n, startTagLength name (c :: cs) = some n → findEndTag name (cs.drop n) = none) :
    leavesOpen name (c :: cs) = true := by
  rw [leavesOpen, if_pos hopens]
  cases hstart : startTagLength name (c :: cs) with
  | none => rfl
  | some n => simp only [h n hstart]

theorem leavesOpen_element (hname : Unmarked name) {start content stop : List Char}
    (hstart : IsStartTag name start) (hcontent : findEndTag name content = none)
    (hstop : IsEndTag name stop) (rest : List Char) :
    leavesOpen name (start ++ '>' :: (content ++ (stop ++ '>' :: rest)))
      = leavesOpen name rest := by
  have hlength := startTagLength_of_isStartTag hstart (content ++ (stop ++ '>' :: rest))
  have hopens := opens_of_isStartTag hstart (content ++ (stop ++ '>' :: rest))
  have hfind := findEndTag_of_isEndTag hname hcontent hstop rest
  obtain ⟨spelled, inside, rfl, -⟩ := hstart
  generalize spelled ++ inside = opening at hlength hopens ⊢
  have hbehind := drop_succ_length opening (content ++ (stop ++ '>' :: rest)) '>'
  rw [List.cons_append] at hlength hopens ⊢
  rw [leavesOpen, if_pos hopens, hlength, List.length_cons]
  simp only [hbehind, hfind]
  simp only [← List.drop_drop, hbehind, List.drop_left, List.drop_succ_cons, List.drop_zero]

/-- A character that stays does so before any text that ends none of the elements left open. -/
theorem stays_append (hname : Unmarked name) {c : Char} {cs rest : List Char}
    (hparted : Parted rest)
    (hstays : ∀ n, startTagLength name (c :: cs) = some n → findEndTag name (cs.drop n) = none)
    (hrest : opens name (c :: cs) = true → findEndTag name rest = none) (n : Nat)
    (hn : startTagLength name (c :: (cs ++ rest)) = some n) :
    findEndTag name ((cs ++ rest).drop n) = none := by
  obtain ⟨start, behind, heq, hisStart, rfl⟩ := isStartTag_of_startTagLength hn
  rw [drop_of_eq_append heq]
  rw [← List.cons_append] at heq
  have hnone : findEndTag name rest = none := by
    refine hrest ?_
    rw [← opens_append hname (List.cons_ne_nil c cs) hparted, heq]
    exact opens_of_isStartTag hisStart behind
  rcases List.append_eq_append_iff.1 heq with ⟨more, rfl, rfl⟩ | ⟨more, hcs, hbehind⟩
  · rw [List.append_cons] at hnone
    exact findEndTag_right hnone
  · cases more with
    | nil =>
      rcases hparted '>' (by rw [← List.nil_append rest, ← hbehind]; rfl) with h | h <;> cases h
    | cons d more =>
      rw [List.cons_append, List.cons.injEq] at hbehind
      obtain ⟨rfl, rfl⟩ := hbehind
      have hmore := hstays start.length (hcs ▸ startTagLength_of_isStartTag hisStart more)
      rw [drop_of_eq_append hcs] at hmore
      rw [findEndTag_append hname hparted, hmore, hnone]
      rfl

/-- Two texts are emptied one after the other, if none of the elements that the first leaves open is
closed by the second. -/
theorem emptyOut_append (hname : Unmarked name) {cs rest : List Char} (hparted : Parted rest)
    (h : leavesOpen name cs = true → findEndTag name rest = none) :
    emptyOut name (cs ++ rest) = emptyOut name cs ++ emptyOut name rest := by
  have hemptied := emptied_emptyOut hname cs
  generalize emptyOut name cs = out at hemptied ⊢
  induction hemptied with
  | nil => rfl
  | @stays c cs out hstays _ ih =>
    have hopens : opens name (c :: cs) = true → findEndTag name rest = none :=
      fun hopens => h (leavesOpen_of_opens hopens hstays)
    have hbehind : leavesOpen name cs = true → findEndTag name rest = none := by
      intro hleaves
      by_cases hbegins : opens name (c :: cs) = true
      · exact hopens hbegins
      · rw [← leavesOpen_cons_of_not_opens (Bool.eq_false_iff.2 hbegins)] at hleaves
        exact h hleaves
    rw [List.cons_append, emptyOut_cons (stays_append hname hparted hstays hopens), ih hbehind,
      List.cons_append]
  | @element start content stop behind out hstart hcontent hstop _ ih =>
    rw [leavesOpen_element hname hstart hcontent hstop] at h
    have hwhole := emptyOut_element hname hstart hcontent hstop (behind ++ rest)
    rw [ih h] at hwhole
    simpa using hwhole

/-! ## Nothing new -/

/-- Stretches between a closing and an opening bracket have been taken out of the first text. -/
inductive Thinned : List Char → List Char → Prop where
  | nil : Thinned [] []
  | keep (c : Char) {cs ds : List Char} : Thinned cs ds → Thinned (c :: cs) (c :: ds)
  | cut (gone : List Char) {cs ds : List Char} : Thinned cs ds →
      Thinned ('>' :: (gone ++ cs)) ('>' :: ds)

theorem Thinned.append_left {cs ds : List Char} (h : Thinned cs ds) (front : List Char) :
    Thinned (front ++ cs) (front ++ ds) := by
  induction front with
  | nil => exact h
  | cons c front ih => exact .keep c ih

theorem thinned_emptyOut (hname : Unmarked name) (cs : List Char) :
    Thinned cs (emptyOut name cs) := by
  have hemptied := emptied_emptyOut hname cs
  generalize emptyOut name cs = out at hemptied ⊢
  induction hemptied with
  | nil => exact .nil
  | @stays c cs out _ _ ih => exact .keep c ih
  | @element start content stop rest out _ _ _ _ ih =>
    exact .append_left (.cut content ((Thinned.keep '>' ih).append_left stop)) start

/-- Up to its first closing bracket a text is left as it is. -/
theorem Thinned.exists_of_head {cs ds : List Char} (h : Thinned cs ds) {text after : List Char}
    (htext : '>' ∉ text) (hds : ds = text ++ '>' :: after) :
    ∃ after', cs = text ++ '>' :: after' := by
  induction h generalizing text with
  | nil => simp at hds
  | @keep c cs ds _ ih =>
    cases text with
    | nil =>
      rw [List.nil_append, List.cons.injEq] at hds
      exact ⟨cs, by rw [hds.1, List.nil_append]⟩
    | cons d text =>
      rw [List.cons_append, List.cons.injEq] at hds
      obtain ⟨rfl, hds⟩ := hds
      obtain ⟨after', rfl⟩ := ih (List.not_mem_of_not_mem_cons htext) hds
      exact ⟨after', rfl⟩
  | @cut gone cs ds _ ih =>
    cases text with
    | nil => exact ⟨gone ++ cs, rfl⟩
    | cons d text =>
      rw [List.cons_append, List.cons.injEq] at hds
      exact absurd (hds.1 ▸ List.mem_cons_self) htext

/-- What ends at a closing bracket, and has no other, stood in the text before. -/
theorem Thinned.exists_of_ended {cs ds : List Char} (h : Thinned cs ds)
    {before text after : List Char} (htext : '>' ∉ text)
    (hds : ds = before ++ (text ++ '>' :: after)) :
    ∃ before' after', cs = before' ++ (text ++ '>' :: after') := by
  induction h generalizing before with
  | nil => simp at hds
  | @keep c cs ds h ih =>
    cases before with
    | nil =>
      obtain ⟨after', hcs⟩ := (Thinned.keep c h).exists_of_head htext hds
      exact ⟨[], after', hcs⟩
    | cons d before =>
      rw [List.cons_append, List.cons.injEq] at hds
      obtain ⟨before', after', rfl⟩ := ih hds.2
      exact ⟨c :: before', after', rfl⟩
  | @cut gone cs ds h ih =>
    cases before with
    | nil =>
      obtain ⟨after', hcs⟩ := (Thinned.cut gone h).exists_of_head htext hds
      exact ⟨[], after', hcs⟩
    | cons d before =>
      rw [List.cons_append, List.cons.injEq] at hds
      obtain ⟨before', after', rfl⟩ := ih hds.2
      exact ⟨'>' :: (gone ++ before'), after', by simp⟩

/-- No end tag comes to be where content is taken out. -/
theorem findEndTag_emptyOut {other : List Char} (hname : Unmarked name) (hother : Unmarked other)
    {cs : List Char} (h : findEndTag other cs = none) :
    findEndTag other (emptyOut name cs) = none := by
  rw [Option.eq_none_iff_forall_ne_some]
  intro t ht
  obtain ⟨content, text, rest, heq, htag, -, -⟩ := isEndTag_of_findEndTag ht
  obtain ⟨before, after, rfl⟩ :=
    (thinned_emptyOut hname cs).exists_of_ended (htag.not_mem hother) heq
  have hnone := findEndTag_right h
  obtain ⟨t', ht'⟩ : ∃ t', findEndTag other (text ++ '>' :: after) = some t' :=
    ⟨_, findEndTag_of_isEndTag hother (rfl : findEndTag other [] = none) htag after⟩
  rw [hnone] at ht'
  cases ht'

theorem Thinned.sublist {cs ds : List Char} (h : Thinned cs ds) : ds.Sublist cs := by
  induction h with
  | nil => exact .slnil
  | keep c _ ih => exact ih.cons_cons c
  | cut gone _ ih => exact (ih.trans (List.sublist_append_right gone _)).cons_cons '>'

/-! ## All names -/

/-- The name of an element whose content is raw text. -/
abbrev RawName := {name : String // name ∈ rawTextElements}

namespace RawName

def chars (n : RawName) : List Char := n.1.toList

theorem unmarked (n : RawName) : Unmarked n.chars := by
  have h : ∀ name ∈ rawTextElements, Unmarked name.toList := by decide +kernel
  exact h n.1 n.2

end RawName

/-- The names in the order in which their elements are emptied. -/
def rawNames : List RawName := rawTextElements.attach

theorem withoutRawText_eq_foldl (cs : List Char) :
    withoutRawText cs = rawNames.foldl (fun cs n => emptyOut n.chars cs) cs :=
  List.foldl_attach.symm

theorem withoutRawText_sublist (cs : List Char) : (withoutRawText cs).Sublist cs := by
  rw [withoutRawText_eq_foldl]
  induction rawNames generalizing cs with
  | nil => exact List.Sublist.refl cs
  | cons n ns ih => exact (ih (emptyOut n.chars cs)).trans (thinned_emptyOut n.unmarked cs).sublist

/-- A text without an end tag of a raw text element stays as it is, and so does what is taken out
before it. -/
theorem withoutRawText_append {rest : List Char} (hparted : Parted rest)
    (h : ∀ n : RawName, findEndTag n.chars rest = none) (cs : List Char) :
    withoutRawText (cs ++ rest) = withoutRawText cs ++ rest := by
  rw [withoutRawText_eq_foldl, withoutRawText_eq_foldl]
  induction rawNames generalizing cs with
  | nil => rfl
  | cons n ns ih =>
    rw [List.foldl_cons, List.foldl_cons, ← ih, emptyOut_append n.unmarked hparted fun _ => h n,
      emptyOut_of_findEndTag (h n)]

/-- Nothing is taken out of a text without an end tag of a raw text element. -/
theorem withoutRawText_of_findEndTag {cs : List Char}
    (h : ∀ n : RawName, findEndTag n.chars cs = none) : withoutRawText cs = cs := by
  rw [withoutRawText_eq_foldl]
  induction rawNames with
  | nil => rfl
  | cons n ns ih => rw [List.foldl_cons, emptyOut_of_findEndTag (h n), ih]

end StyleSieve.Markup
