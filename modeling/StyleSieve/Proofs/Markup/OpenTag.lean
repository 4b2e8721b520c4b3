import StyleSieve.Proofs.Markup.Construct
import StyleSieve.Proofs.Markup.RawText

/-!
# Tags left open

What is made of a tag that is left open at the end of a document (`openTag_reported`). A fault in
its attributes comes first; then the last bracket of the document decides whether the tag is
reported, and where. The offset counts what is left of the source once the content of raw text
elements has been taken out, so it is where the tag stands in the source only if nothing was. An end
tag of a raw text element between the quotes of a value is left out here.
-/

namespace StyleSieve.Markup

open Text
open Selector (Compound)

/-! ## The last opening bracket -/

theorem lastOpened_of_not_mem {cs : List Char} (h : '<' ∉ cs) : lastOpened cs = none := by
  rw [lastOpened, if_neg]
  simpa using h

theorem lastOpened_append {tail : List Char} (h : '<' ∉ tail) (before : List Char) :
    lastOpened (before ++ '<' :: tail) = some tail := by
  have htail : '<' ∉ tail.reverse := by simpa using h
  have hreverse : (before ++ '<' :: tail).reverse = tail.reverse ++ '<' :: before.reverse := by simp
  rw [lastOpened, if_pos (by simp), hreverse, takeWhile_bne_append htail, List.reverse_reverse]

theorem exists_last_opened {cs : List Char} (h : '<' ∈ cs) :
    ∃ before tail, cs = before ++ '<' :: tail ∧ '<' ∉ tail := by
  obtain ⟨after, before, hcs, hafter⟩ := List.eq_append_cons_of_mem (List.mem_reverse.2 h)
  refine ⟨before.reverse, after.reverse, ?_, by simpa using hafter⟩
  rw [← List.reverse_reverse cs, hcs]
  simp

/-- Every opening bracket of the text has a closing one behind it. -/
def Shut (cs : List Char) : Prop :=
  ∀ before after, cs = before ++ '<' :: after → '>' ∈ after

theorem Shut.of_not_mem {cs : List Char} (h : '<' ∉ cs) : Shut cs := by
  rintro before after rfl
  simp at h

theorem Shut.append {cs ds : List Char} (h : Shut cs) (h' : Shut ds) : Shut (cs ++ ds) := by
  intro before after heq
  rcases List.append_eq_append_iff.1 heq with ⟨more, rfl, hds⟩ | ⟨more, hcs, hafter⟩
  · exact h' more after hds
  · cases more with
    | nil => exact h' [] after hafter.symm
    | cons c more =>
      rw [List.cons_append, List.cons.injEq] at hafter
      obtain ⟨rfl, rfl⟩ := hafter
      exact List.mem_append_left ds (h before more hcs)

/-- A text that ends in a closing bracket is shut. -/
theorem shut_concat (cs : List Char) : Shut (cs ++ ['>']) := by
  intro before after heq
  rcases List.eq_nil_or_concat after with rfl | ⟨front, c, rfl⟩
  · have hlast := (List.append_inj' heq rfl).2
    cases hlast
  · rw [List.concat_eq_append, ← List.cons_append, ← List.append_assoc] at heq
    have hlast := (List.append_inj' heq rfl).2
    rw [List.concat_eq_append, ← hlast]
    simp

/-- The text behind the last opening bracket begins a tag, and does not end it. -/
def beginsTag : List Char → Bool
  | [] => false
  | c :: cs => !(c :: cs).contains '>' && (alphabetic.has c || c == '/' || c == '!')

theorem openTagAt_append {tail : List Char} (h : '<' ∉ tail) (before : List Char) :
    openTagAt (before ++ '<' :: tail) = if beginsTag tail then some (width before) else none := by
  have hbracket : '<'.utf8Size = 1 := rfl
  rw [openTagAt, lastOpened_append h]
  cases tail with
  | nil => rfl
  | cons c tail =>
    have hwidth : width (before ++ '<' :: c :: tail) - width (c :: tail) - 1 = width before := by
      simp only [width_append, width_cons, hbracket]
      omega
    cases hclosed : (c :: tail).contains '>' <;>
      simp only [beginsTag, hclosed, hwidth, Bool.not_true, Bool.not_false, Bool.false_and,
        Bool.true_and, Bool.false_eq_true, ↓reduceIte]

/-- The offset of an open tag is moved by what stands before the text. -/
theorem openTagAt_moved {tail : List Char} (h : '<' ∈ tail) (before : List Char) :
    openTagAt (before ++ tail) = (openTagAt tail).map (width before + ·) := by
  obtain ⟨front, last, rfl, hlast⟩ := exists_last_opened h
  rw [← List.append_assoc, openTagAt_append hlast, openTagAt_append hlast, width_append]
  cases beginsTag last <;> rfl

/-- A shut text does not end within a tag. -/
theorem Shut.openTagAt_eq {cs : List Char} (h : Shut cs) : openTagAt cs = none := by
  by_cases hmem : '<' ∈ cs
  · obtain ⟨before, tail, rfl, htail⟩ := exists_last_opened hmem
    have hclosed : '>' ∈ tail := h before tail rfl
    have hbegins : beginsTag tail = false := by
      cases tail with
      | nil => rfl
      | cons c tail => rw [beginsTag, List.contains_iff_mem.2 hclosed]; rfl
    rw [openTagAt_append htail, hbegins]
    rfl
  · rw [openTagAt, lastOpened_of_not_mem hmem]

/-! ## A tag at the end -/

/-- A text ends outside of every tag: behind complete constructs there is nothing, or text from a
bracket on that begins no tag. -/
structure EndsOutside (cs whole stray : List Char) : Prop where
  eq_append : cs = whole ++ stray
  complete : ∃ insides, Complete whole insides
  begins_none : stray = [] ∨ ∃ text, stray = '<' :: text ∧ tagContent none text = text ∧
    ∀ c ∈ text.head?, alphabetic.has c = false ∧ opensTag c = true

theorem eq_of_sublist_of_width {cs ds : List Char} (h : cs.Sublist ds)
    (hwidth : width ds ≤ width cs) : cs = ds := by
  have hle : ∀ {cs ds : List Char}, cs.Sublist ds → width cs ≤ width ds := by
    intro cs ds h
    induction h with
    | slnil => exact Nat.le_refl 0
    | cons c _ ih => exact Nat.le_trans ih (Nat.le_add_left _ _)
    | cons_cons c _ ih => exact Nat.add_le_add_left ih _
  induction h with
  | slnil => rfl
  | cons c h _ =>
    have hlonger := hle h
    have hpos := c.utf8Size_pos
    rw [width_cons] at hwidth
    omega
  | cons_cons c _ ih =>
    rw [width_cons, width_cons] at hwidth
    rw [ih (Nat.le_of_add_le_add_left hwidth)]

theorem withoutMark_append {tail : List Char} (h : ∀ c ∈ tail.head?, c ≠ orderMark)
    (cs : List Char) : withoutMark (cs ++ tail) = withoutMark cs ++ tail := by
  cases cs with
  | nil =>
    cases tail with
    | nil => rfl
    | cons c tail =>
      have hc : c ≠ orderMark := h c rfl
      simp [withoutMark, hc]
  | cons c cs =>
    rw [List.cons_append, withoutMark, withoutMark]
    split <;> rfl

theorem ne_of_alphabetic {c d : Char} (h : alphabetic.has c = true)
    (hd : alphabetic.has d = false) : c ≠ d := by
  rintro rfl
  rw [h] at hd
  cases hd

theorem opensTag_of_alphabetic {c : Char} (h : alphabetic.has c = true) : opensTag c = true := by
  have hbang : c ≠ '!' := ne_of_alphabetic h (by decide +kernel)
  have hslash : c ≠ '/' := ne_of_alphabetic h (by decide +kernel)
  have hmark : c ≠ '?' := ne_of_alphabetic h (by decide +kernel)
  simp [opensTag, hbang, hslash, hmark]

/-- Without a closing bracket a tag does not end. -/
theorem tagContent_of_not_mem {quote : Option Char} {cs : List Char} (h : '>' ∉ cs) :
    tagContent quote cs = cs := by
  induction cs generalizing quote with
  | nil => rfl
  | cons c cs ih =>
    rw [List.mem_cons, not_or] at h
    have hc : (c == '>') = false := beq_false_of_ne (Ne.symm h.1)
    cases quote with
    | none => rw [tagContent, hc, ih h.2]; rfl
    | some q => rw [tagContent, ih h.2]

theorem tagContent_append_of_not_mem {quote : Option Char} {cs rest : List Char}
    (h : tagContent quote cs = cs) (hrest : '>' ∉ rest) :
    tagContent quote (cs ++ rest) = cs ++ rest := by
  induction cs generalizing quote with
  | nil => exact tagContent_of_not_mem hrest
  | cons c cs ih =>
    cases quote with
    | some q =>
      rw [tagContent, List.cons.injEq] at h
      rw [List.cons_append, tagContent, ih h.2]
    | none =>
      rw [tagContent] at h
      rw [List.cons_append, tagContent]
      split
      · next hc => simp [hc] at h
      · next hc =>
        rw [if_neg hc, List.cons.injEq] at h
        rw [ih h.2]

theorem findEndTag_of_not_mem (n : RawName) {cs : List Char} (h : '>' ∉ cs) :
    findEndTag n.chars cs = none := by
  rw [Option.eq_none_iff_forall_ne_some]
  intro t ht
  obtain ⟨content, text, rest, rfl, -⟩ := isEndTag_of_findEndTag ht
  simp at h

/-- Faults of attributes are told apart from a tag that is left open. -/
theorem attributes_ne_openTag {size : Nat} {cs : List Char} {fault : MarkupFault}
    (h : attributes size cs = .error fault) : fault ≠ .openTag := by
  have hvalue : ∀ {cs fault}, readValue size cs = .error fault → fault ≠ .openTag := by
    rintro cs fault h rfl
    unfold readValue at h
    dsimp only at h
    repeat' split at h
    all_goals cases h
  fun_induction attributes size cs with
  | case1 => cases h
  | case2 cs c rest hdrop hlength name after gap hequals text e hread =>
    cases h
    exact hvalue hread
  | case3 cs c rest hdrop hlength name after gap hequals text value k hread ih =>
    cases hmore : attributes size (text.drop k) with
    | ok as => simp [hmore, Functor.map, Except.map] at h
    | error e =>
      refine ih ?_
      simpa [hmore, Functor.map, Except.map] using h
  | case4 cs c rest hdrop hlength name after gap hequals ih =>
    cases hmore : attributes size (after.drop gap) with
    | ok as => simp [hmore, Functor.map, Except.map] at h
    | error e =>
      refine ih ?_
      simpa [hmore, Functor.map, Except.map] using h

theorem elementOf_ne_openTag {inside : List Char} {fault : MarkupFault}
    (h : elementOf inside = .error fault) : fault ≠ .openTag := by
  rw [elementOf] at h
  cases hread : attributes (width (withoutSlash inside)) ((withoutSlash inside).drop
      ((withoutSlash inside).takeWhile (!isTagSpace ·)).length) with
  | ok as => simp [hread, Functor.map, Except.map] at h
  | error e =>
    obtain rfl : e = fault := by simpa [hread, Functor.map, Except.map] using h
    exact attributes_ne_openTag hread

variable {source : String} {nodes : List Compound} {whole stray more left : List Char} {c : Char}

/-- What is read as the open tag begins with the stray bracket, if there is one. -/
theorem EndsOutside.pieces_eq {cs : List Char} (hends : EndsOutside cs whole stray)
    (hc : alphabetic.has c = true) (hleft : stray ++ '<' :: c :: more = '<' :: left)
    (hopen : tagContent none left = left) (pos : Nat) :
    pieces pos ('<' :: left) = [.tag left (pos + 1)] := by
  obtain ⟨d, ds, rfl, hd⟩ : ∃ d ds, left = d :: ds ∧ opensTag d = true := by
    rcases hends.begins_none with rfl | ⟨text, rfl, -, htext⟩
    · exact ⟨c, more, (List.cons.inj hleft).2.symm, opensTag_of_alphabetic hc⟩
    · rw [List.cons_append, List.cons.injEq] at hleft
      cases text with
      | nil => exact ⟨'<', c :: more, hleft.2.symm, rfl⟩
      | cons d text => exact ⟨d, text ++ '<' :: c :: more, hleft.2.symm, (htext d rfl).2⟩
  have hread := readPiece_open hd hopen (pos + 1)
  have hpiece : pieces pos ('<' :: (d :: ds ++ []))
      = .tag (d :: ds) (pos + 1) :: pieces (pos + width ('<' :: d :: ds)) [] :=
    pieces_tag (by simpa using hread)
  rwa [List.append_nil, pieces_of_not_mem (List.not_mem_nil : '<' ∉ [])] at hpiece

/-- A document with a tag left open at its end: an element is read of the open tag, or a fault is
found in it, and then the last bracket decides. -/
theorem elements_left_open (h : elements source = .ok nodes)
    (hends : EndsOutside (withoutMark (withoutRawText source.toList)) whole stray)
    (hc : alphabetic.has c = true) (hleft : stray ++ '<' :: c :: more = '<' :: left)
    (hopen : tagContent none left = left)
    (hraw : ∀ n : RawName, findEndTag n.chars ('<' :: c :: more) = none) :
    ∃ found, elements (source ++ String.ofList ('<' :: c :: more)) =
      match elementOf left with
      | .error fault => .error ⟨fault, width whole + 1⟩
      | .ok e =>
        match openTagAt ('<' :: c :: more) with
        | some k => .error ⟨.openTag, width (withoutRawText source.toList) + k⟩
        | none => .ok (found ++ [e]) := by
  have hpieces := hends.pieces_eq hc hleft hopen
  obtain ⟨hcut, ⟨insides, hwhole⟩, -⟩ := hends
  obtain ⟨tags, -, hread⟩ := hwhole.reads 0
  -- What stands before the open tag is read without a fault, as it was without the tag.
  obtain ⟨found, hfound⟩ : ∃ found, elementsOf (tagPieces tags) = .ok found := by
    rw [elements, hcut, hread] at h
    cases hbefore : elementsOf (tagPieces tags) with
    | ok found => exact ⟨found, rfl⟩
    | error e => simp [elementsOf_append, hbefore, bind, Except.bind] at h
  refine ⟨found, ?_⟩
  have hmarkup : withoutRawText (source ++ String.ofList ('<' :: c :: more)).toList
      = withoutRawText source.toList ++ '<' :: c :: more := by
    rw [String.toList_append, String.toList_ofList]
    exact withoutRawText_append (by rintro d ⟨⟩; exact .inl rfl) hraw source.toList
  have hmarked : withoutMark (withoutRawText source.toList ++ '<' :: c :: more)
      = whole ++ '<' :: left := by
    rw [withoutMark_append (by rintro d ⟨⟩; decide), hcut, List.append_assoc, hleft]
  have helements : elementsOf (pieces 0 (whole ++ '<' :: left)) =
      match elementOf left with
      | .error fault => .error ⟨fault, width whole + 1⟩
      | .ok e => .ok (found ++ [e]) := by
    rw [hread, hpieces, elementsOf_append, hfound, Nat.zero_add, elementsOf]
    cases elementOf left <;> rfl
  rw [elements, hmarkup]
  simp only [hmarked, helements, openTagAt_moved (List.mem_cons_self : '<' ∈ '<' :: c :: more)]
  cases elementOf left with
  | error fault => rfl
  | ok e => cases openTagAt ('<' :: c :: more) <;> rfl

theorem EndsOutside.tagContent_eq {cs : List Char} (hends : EndsOutside cs whole stray)
    (hc : alphabetic.has c = true) (hmore : '>' ∉ more)
    (hleft : stray ++ '<' :: c :: more = '<' :: left) : tagContent none left = left := by
  have hbracket : '>' ∉ c :: more := by
    rw [List.mem_cons, not_or]
    exact ⟨(ne_of_alphabetic hc (by decide +kernel)).symm, hmore⟩
  rcases hends.begins_none with rfl | ⟨text, rfl, htext, -⟩
  · obtain rfl : c :: more = left := (List.cons.inj hleft).2
    exact tagContent_of_not_mem hbracket
  · obtain rfl : text ++ '<' :: c :: more = left := (List.cons.inj hleft).2
    refine tagContent_append_of_not_mem htext ?_
    rw [List.mem_cons, not_or]
    exact ⟨by decide, hbracket⟩

/-- A tag without brackets in its values begins at its own bracket. -/
theorem openTagAt_tag (hc : alphabetic.has c = true) (hopening : '<' ∉ more)
    (hclosing : '>' ∉ more) : openTagAt ('<' :: c :: more) = some 0 := by
  have hne : c ≠ '<' := ne_of_alphabetic hc (by decide +kernel)
  have hne' : c ≠ '>' := ne_of_alphabetic hc (by decide +kernel)
  have hlast : '<' ∉ c :: more := by simp [hne.symm, hopening]
  have hclosed : (c :: more).contains '>' = false := by simp [hne'.symm, hclosing]
  have h := openTagAt_append hlast []
  rw [List.nil_append, beginsTag, hclosed, hc] at h
  exact h

theorem reported_iff (h : elements source = .ok nodes)
    (hends : EndsOutside (withoutMark (withoutRawText source.toList)) whole stray)
    (hc : alphabetic.has c = true) (hleft : stray ++ '<' :: c :: more = '<' :: left)
    (hopen : tagContent none left = left)
    (hraw : ∀ n : RawName, findEndTag n.chars ('<' :: c :: more) = none) :
    elements (source ++ String.ofList ('<' :: c :: more)) = .error ⟨.openTag, width source.toList⟩ ↔
      (∃ e, elementOf left = .ok e) ∧ ∃ k, openTagAt ('<' :: c :: more) = some k ∧
        width (withoutRawText source.toList) + k = width source.toList := by
  obtain ⟨found, helements⟩ := elements_left_open h hends hc hleft hopen hraw
  rw [helements]
  cases hread : elementOf left with
  | error fault =>
    have hfault := elementOf_ne_openTag hread
    simp [hfault]
  | ok e => cases openTagAt ('<' :: c :: more) <;> simp

/-- A tag without brackets in its values is noticed. -/
theorem exists_error_of_not_mem (h : elements source = .ok nodes)
    (hends : EndsOutside (withoutMark (withoutRawText source.toList)) whole stray)
    (hc : alphabetic.has c = true) (hleft : stray ++ '<' :: c :: more = '<' :: left)
    (hopening : '<' ∉ more) (hclosing : '>' ∉ more) (hopen : tagContent none left = left)
    (hraw : ∀ n : RawName, findEndTag n.chars ('<' :: c :: more) = none) :
    ∃ e, elements (source ++ String.ofList ('<' :: c :: more)) = .error e := by
  obtain ⟨found, helements⟩ := elements_left_open h hends hc hleft hopen hraw
  rw [helements, openTagAt_tag hc hopening hclosing]
  cases elementOf left with
  | error fault => exact ⟨_, rfl⟩
  | ok e => exact ⟨_, rfl⟩

/-- A tag left open at the end is reported where it stands just when its attributes can be read, the
last bracket of the document begins a tag and no other bracket follows, and the offset of that
bracket in what is left of the source is that of the tag. Without brackets in its values the tag is
always noticed, and reported where it stands if nothing has been taken out of the source. -/
theorem openTag_reported (h : elements source = .ok nodes)
    (hends : EndsOutside (withoutMark (withoutRawText source.toList)) whole stray)
    (hc : alphabetic.has c = true) (hleft : stray ++ '<' :: c :: more = '<' :: left) :
    (tagContent none left = left → (∀ n : RawName, findEndTag n.chars ('<' :: c :: more) = none) →
      (elements (source ++ String.ofList ('<' :: c :: more))
          = .error ⟨.openTag, width source.toList⟩ ↔
        (∃ e, elementOf left = .ok e) ∧ ∃ k, openTagAt ('<' :: c :: more) = some k ∧
          width (withoutRawText source.toList) + k = width source.toList)) ∧
    ('<' ∉ more → '>' ∉ more →
      (∃ e, elements (source ++ String.ofList ('<' :: c :: more)) = .error e) ∧
      (elements (source ++ String.ofList ('<' :: c :: more))
          = .error ⟨.openTag, width source.toList⟩ ↔
        (∃ e, elementOf left = .ok e) ∧ withoutRawText source.toList = source.toList)) := by
  constructor
  · exact reported_iff h hends hc hleft
  intro hopening hclosing
  have hopen := hends.tagContent_eq hc hclosing hleft
  have hraw : ∀ n : RawName, findEndTag n.chars ('<' :: c :: more) = none := by
    intro n
    have hne : c ≠ '>' := ne_of_alphabetic hc (by decide +kernel)
    exact findEndTag_of_not_mem n (by simp [hne.symm, hclosing])
  refine ⟨exists_error_of_not_mem h hends hc hleft hopening hclosing hopen hraw, ?_⟩
  rw [reported_iff h hends hc hleft hopen hraw, openTagAt_tag hc hopening hclosing]
  refine and_congr_right fun _ => ?_
  constructor
  · rintro ⟨k, hk, hwidth⟩
    obtain rfl : 0 = k := Option.some.inj hk
    exact eq_of_sublist_of_width (withoutRawText_sublist source.toList) (Nat.le_of_eq hwidth.symm)
  · intro hsame
    exact ⟨0, rfl, by rw [hsame, Nat.add_zero]⟩

/-- A stray bracket in the text before the tag is no hindrance. -/
theorem openTag_reported_after_stray :
    let source := "<p>1 < 2"
    elements source = .ok [.ofTag "p", ⟨some "", none, ∅, .ofList ["2"], [], []⟩] ∧
      elements (source ++ "<a b=\"c\"") = .error ⟨.openTag, width source.toList⟩ := by
  intro source
  have hsource : elements source = .ok [.ofTag "p", ⟨some "", none, ∅, .ofList ["2"], [], []⟩] := by
    decide +kernel
  have hends : EndsOutside (withoutMark (withoutRawText source.toList)) "<p>1 ".toList
      "< 2".toList := {
    eq_append := by decide +kernel
    complete := ⟨_, @Complete.start 'p' [] _ _ rfl rfl
      (.text (by decide) (.text (by decide) .nil))⟩
    begins_none := .inr ⟨" 2".toList, rfl, rfl, by rintro c ⟨⟩; exact ⟨by decide +kernel, rfl⟩⟩ }
  have hreported := @openTag_reported source _ _ _ " b=\"c\"".toList " 2<a b=\"c\"".toList 'a'
    hsource hends (by decide +kernel) rfl
  have hread : ∃ e, elementOf " 2<a b=\"c\"".toList = .ok e := by
    refine ⟨⟨some "", none, ∅, .ofList ["2<a", "b"], [], []⟩, ?_⟩
    decide +kernel
  exact ⟨hsource, (hreported.2 (by decide) (by decide)).2.2 ⟨hread, by decide +kernel⟩⟩

/-- What has been taken out of the source is missing from the offset, and a bracket in a value hides
the tag. -/
theorem openTag_misplaced :
    elements "<script>x</script>" = .ok [.ofTag "script"] ∧
      width "<script>x</script>".toList = 18 ∧
      elements ("<script>x</script>" ++ "<a") = .error ⟨.openTag, 17⟩ ∧
      elements ("<p></p>" ++ "<a b=\"x>y\"")
        = .ok [.ofTag "p", ⟨some "a", none, ∅, .ofList ["b"], [], []⟩] := by
  decide +kernel

end StyleSieve.Markup
