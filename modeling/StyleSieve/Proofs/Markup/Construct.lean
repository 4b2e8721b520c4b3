import StyleSieve.Proofs.Markup.StartTag
import StyleSieve.Proofs.Text.Words

/-!
# Complete constructs

A text that ends outside of every construct: text, tags, comments, sections of character data,
document types and instructions, each up to its own end. Such a text is read the same way before
whatever follows it (`Complete.reads`), so what a document offers is put together from its parts. A
construct that is left open, and a bracket that begins none, are not told about here.
-/

namespace StyleSieve.Markup

open Text
open Selector (Compound)

/-! ## Where pieces end -/

/-- The end of a tag is found whatever follows it. -/
theorem tagContent_append {quote : Option Char} {cs : List Char}
    (h : (tagContent quote cs).length < cs.length) (rest : List Char) :
    tagContent quote (cs ++ rest) = tagContent quote cs := by
  induction cs generalizing quote with
  | nil => simp at h
  | cons c cs ih =>
    cases quote with
    | some q =>
      simp only [tagContent, List.cons_append, List.length_cons, Nat.add_lt_add_iff_right] at h ⊢
      rw [ih h]
    | none =>
      simp only [tagContent, List.cons_append] at h ⊢
      split
      · rfl
      · next hc =>
        rw [if_neg hc, List.length_cons, List.length_cons, Nat.add_lt_add_iff_right] at h
        rw [ih h]

/-- A text ends at the first closing bracket at which it may end. -/
theorem textUpTo_append {mayEnd : List Char → Bool} {before cs text : List Char}
    (h : textUpTo mayEnd before cs = some text) (rest : List Char) :
    textUpTo mayEnd before (cs ++ rest) = some text := by
  induction cs generalizing before with
  | nil => simp [textUpTo] at h
  | cons c cs ih =>
    rw [List.cons_append, textUpTo]
    rw [textUpTo] at h
    split
    · next hend => rwa [if_pos hend] at h
    · next hend =>
      rw [if_neg hend] at h
      exact ih h

theorem textUpTo_eq {mayEnd : List Char → Bool} {before text rest : List Char}
    (hend : mayEnd (text.reverse ++ before) = true)
    (hinside : ∀ front back, text = front ++ '>' :: back →
      mayEnd (front.reverse ++ before) = false) :
    textUpTo mayEnd before (text ++ '>' :: rest) = some (before.reverse ++ text) := by
  induction text generalizing before with
  | nil =>
    have hbefore : mayEnd before = true := by simpa using hend
    simp [textUpTo, hbefore]
  | cons c text ih =>
    have hstop : (c == '>' && mayEnd before) = false := by
      by_cases hc : c = '>'
      · have := hinside [] text (by rw [hc, List.nil_append])
        simpa using fun _ => this
      · simp [hc]
    rw [List.cons_append, textUpTo, hstop, if_neg Bool.false_ne_true, ih]
    · simp
    · simpa using hend
    · intro front back htext
      have := hinside (c :: front) back (by rw [htext, List.cons_append])
      simpa using this

/-! ## Constructs -/

/-- What an exclamation mark and the text after it begin. -/
inductive BeginsBang :
    List Char → (List Char → Bool) → (List Char → Option MarkupFault) → Prop where
  | characterData (text : List Char) :
      BeginsBang ('[' :: text) endsCharacterData checkCharacterData
  | comment (text : List Char) : BeginsBang ('-' :: text) endsComment checkComment
  | documentType {c : Char} (text : List Char) : c = 'D' ∨ c = 'd' →
      BeginsBang (c :: text) endsDocumentType checkDocumentType

/-- A character that may follow the opening bracket of a start tag. -/
def opensTag (c : Char) : Bool := c != '!' && c != '/' && c != '?'

/-- A text that ends outside of every construct, and the insides of its start tags. -/
inductive Complete : List Char → List (List Char) → Prop where
  | nil : Complete [] []
  | text {c : Char} {cs : List Char} {insides : List (List Char)} : c ≠ '<' →
      Complete cs insides → Complete (c :: cs) insides
  | start {c : Char} {inside cs : List Char} {insides : List (List Char)} : opensTag c = true →
      tagContent none (c :: inside ++ ['>']) = c :: inside → Complete cs insides →
      Complete ('<' :: (c :: inside ++ '>' :: cs)) ((c :: inside) :: insides)
  | stop {text cs : List Char} {insides : List (List Char)} : '>' ∉ text → Complete cs insides →
      Complete ('<' :: '/' :: (text ++ '>' :: cs)) insides
  | bang {text cs : List Char} {insides : List (List Char)} {mayEnd : List Char → Bool}
      {check : List Char → Option MarkupFault} : BeginsBang text mayEnd check →
      textUpTo mayEnd [] (text ++ ['>']) = some text → check text = none → Complete cs insides →
      Complete ('<' :: '!' :: (text ++ '>' :: cs)) insides
  | instruction {text cs : List Char} {insides : List (List Char)} : '>' ∉ text →
      2 ≤ text.length → text.getLast? = some '?' → Complete cs insides →
      Complete ('<' :: '?' :: (text ++ '>' :: cs)) insides

theorem Complete.append {cs ds : List Char} {insides more : List (List Char)}
    (h : Complete cs insides) (h' : Complete ds more) : Complete (cs ++ ds) (insides ++ more) := by
  induction h with
  | nil => exact h'
  | text hc _ ih => exact .text hc ih
  | start hopens hinside _ ih =>
    simp only [List.cons_append, List.append_assoc]
    exact .start hopens hinside ih
  | stop htext _ ih =>
    simp only [List.cons_append, List.append_assoc]
    exact .stop htext ih
  | bang hbegins htext hcheck _ ih =>
    simp only [List.cons_append, List.append_assoc]
    exact .bang hbegins htext hcheck ih
  | instruction htext hlength hlast _ ih =>
    simp only [List.cons_append, List.append_assoc]
    exact .instruction htext hlength hlast ih

theorem Complete.of_text {cs : List Char} (h : '<' ∉ cs) : Complete cs [] := by
  induction cs with
  | nil => exact .nil
  | cons c cs ih =>
    rw [List.mem_cons, not_or] at h
    exact .text (Ne.symm h.1) (ih h.2)

/-- The mark that may begin a document is text. -/
theorem Complete.withoutMark {cs : List Char} {insides : List (List Char)}
    (h : Complete cs insides) : Complete (withoutMark cs) insides := by
  cases cs with
  | nil => exact h
  | cons c cs =>
    rw [Markup.withoutMark]
    split
    · next hmark =>
      have hc : c = orderMark := by simpa using hmark
      subst hc
      cases h with
      | text _ h => exact h
    · exact h

/-! ## Reading -/

/-- A text without an opening bracket has no pieces. -/
theorem pieces_of_not_mem {text : List Char} (h : '<' ∉ text) (pos : Nat) :
    pieces pos text = [] := by
  rw [pieces]
  split
  · rfl
  · next hdrop =>
    rw [takeWhile_bne_of_not_mem h, List.drop_length] at hdrop
    cases hdrop

/-- The pieces from an opening bracket on. -/
theorem pieces_after_text {text : List Char} (htext : '<' ∉ text) (pos : Nat) (rest : List Char) :
    pieces pos (text ++ '<' :: rest) =
      let here := pos + width text + 1
      let piece := readPiece here rest
      let more := pieces (here + width (rest.take piece.2)) (rest.drop piece.2)
      match piece.1 with
      | none => more
      | some (.fault e) => [.fault e]
      | some p => p :: more := by
  have htake := takeWhile_bne_append htext rest
  rw [pieces]
  split
  · next h =>
    rw [htake, List.drop_left] at h
    cases h
  · next c rest' h =>
    rw [htake, List.drop_left, List.cons.injEq] at h
    obtain ⟨-, rfl⟩ := h
    rcases hpiece : readPiece (pos + width text + 1) rest with ⟨_ | ⟨inside, stop⟩ | e, n⟩ <;>
      simp [htake, hpiece]

theorem pieces_text {c : Char} (hc : c ≠ '<') (pos : Nat) (cs : List Char) :
    pieces pos (c :: cs) = pieces (pos + c.utf8Size) cs := by
  by_cases h : '<' ∈ cs
  · obtain ⟨text, rest, rfl, htext⟩ := List.eq_append_cons_of_mem h
    have htext' : '<' ∉ c :: text := by
      rw [List.mem_cons, not_or]
      exact ⟨Ne.symm hc, htext⟩
    rw [pieces_after_text htext, ← List.cons_append, pieces_after_text htext', width_cons]
    simp only [Nat.add_assoc]
  · have h' : '<' ∉ c :: cs := by
      rw [List.mem_cons, not_or]
      exact ⟨Ne.symm hc, h⟩
    rw [pieces_of_not_mem h, pieces_of_not_mem h']

/-- A construct that is no start tag is passed over. -/
theorem pieces_passed {pos : Nat} {body rest : List Char}
    (h : readPiece (pos + 1) (body ++ rest) = (none, body.length)) :
    pieces pos ('<' :: (body ++ rest)) = pieces (pos + width ('<' :: body)) rest := by
  have hpieces := pieces_after_text (List.not_mem_nil : '<' ∉ []) pos (body ++ rest)
  have hbracket : '<'.utf8Size = 1 := rfl
  simpa [h, hbracket, Nat.add_assoc] using hpieces

theorem pieces_tag {pos stop : Nat} {body rest inside : List Char}
    (h : readPiece (pos + 1) (body ++ rest) = (some (.tag inside stop), body.length)) :
    pieces pos ('<' :: (body ++ rest))
      = .tag inside stop :: pieces (pos + width ('<' :: body)) rest := by
  have hpieces := pieces_after_text (List.not_mem_nil : '<' ∉ []) pos (body ++ rest)
  have hbracket : '<'.utf8Size = 1 := rfl
  simpa [h, hbracket, Nat.add_assoc] using hpieces

/-! ### Constructs one by one -/

theorem readPiece_start {c : Char} {inside : List Char} (hopens : opensTag c = true)
    (hinside : tagContent none (c :: inside ++ ['>']) = c :: inside) (here : Nat)
    (rest : List Char) :
    readPiece here (c :: inside ++ '>' :: rest)
      = (some (.tag (c :: inside) (here + width (c :: inside) + 1)), inside.length + 2) := by
  have hcontent : tagContent none (c :: inside ++ '>' :: rest) = c :: inside := by
    have hended : (tagContent none (c :: inside ++ ['>'])).length
        < (c :: inside ++ ['>']).length := by
      rw [hinside, List.length_append, List.length_singleton]
      omega
    have hfound := tagContent_append hended rest
    rwa [hinside, List.append_assoc] at hfound
  simp only [opensTag, Bool.and_eq_true, bne_iff_ne] at hopens
  obtain ⟨⟨hbang, hslash⟩, hmark⟩ := hopens
  rw [List.cons_append] at hcontent ⊢
  rw [readPiece]
  · simp [hcontent]
  · exact hbang
  · exact hslash
  · exact hmark

/-- A start tag that is not ended takes all that follows. -/
theorem readPiece_open {c : Char} {inside : List Char} (hopens : opensTag c = true)
    (hinside : tagContent none (c :: inside) = c :: inside) (here : Nat) :
    readPiece here (c :: inside) = (some (.tag (c :: inside) here), inside.length + 1) := by
  simp only [opensTag, Bool.and_eq_true, bne_iff_ne] at hopens
  obtain ⟨⟨hbang, hslash⟩, hmark⟩ := hopens
  rw [readPiece]
  · simp [hinside]
  · exact hbang
  · exact hslash
  · exact hmark

theorem readPiece_stop {text : List Char} (htext : '>' ∉ text) (here : Nat) (rest : List Char) :
    readPiece here ('/' :: (text ++ '>' :: rest)) = (none, text.length + 2) := by
  rw [readPiece, takeWhile_bne_append htext]

theorem readPiece_instruction {text : List Char} (htext : '>' ∉ text) (hlength : 2 ≤ text.length)
    (hlast : text.getLast? = some '?') (here : Nat) (rest : List Char) :
    readPiece here ('?' :: (text ++ '>' :: rest)) = (none, text.length + 2) := by
  rw [readPiece, takeWhile_bne_append htext]
  simp [hlength, hlast]

theorem readPiece_bang {text : List Char} {mayEnd : List Char → Bool}
    {check : List Char → Option MarkupFault} (hbegins : BeginsBang text mayEnd check)
    (htext : textUpTo mayEnd [] (text ++ ['>']) = some text) (hcheck : check text = none)
    (here : Nat) (rest : List Char) :
    readPiece here ('!' :: (text ++ '>' :: rest)) = (none, text.length + 2) := by
  have hfound : textUpTo mayEnd [] (text ++ '>' :: rest) = some text := by
    simpa using textUpTo_append htext rest
  have hread : ∀ what, readBang what mayEnd check here (text ++ '>' :: rest)
      = (none, text.length + 1) := by
    intro what
    simp [readBang, hfound, hcheck]
  cases hbegins with
  | characterData text => simp only [readPiece, List.cons_append] at hread ⊢; rw [hread]
  | comment text => simp only [readPiece, List.cons_append] at hread ⊢; rw [hread]
  | documentType text hc =>
    rcases hc with rfl | rfl <;> simp only [readPiece, List.cons_append] at hread ⊢ <;> rw [hread]

/-! ### Texts of constructs -/

/-- The pieces of start tags with their insides and the offsets at which they end. -/
def tagPieces (tags : List (List Char × Nat)) : List Piece :=
  tags.map fun t => .tag t.1 t.2

/-- A text of complete constructs is read alike before whatever follows it, and what follows is read
as a text of its own. -/
theorem Complete.reads {cs : List Char} {insides : List (List Char)} (h : Complete cs insides)
    (pos : Nat) :
    ∃ tags, tags.map Prod.fst = insides ∧
      ∀ rest, pieces pos (cs ++ rest) = tagPieces tags ++ pieces (pos + width cs) rest := by
  -- A construct that is passed over adds nothing to the tags of the text behind it.
  have hpassed : ∀ (pos : Nat) (body cs : List Char) (insides : List (List Char)),
      (∀ here rest, readPiece here (body ++ rest) = (none, body.length)) →
      (∀ pos, ∃ tags, tags.map Prod.fst = insides ∧
        ∀ rest, pieces pos (cs ++ rest) = tagPieces tags ++ pieces (pos + width cs) rest) →
      ∃ tags, tags.map Prod.fst = insides ∧ ∀ rest, pieces pos ('<' :: (body ++ cs) ++ rest)
        = tagPieces tags ++ pieces (pos + width ('<' :: (body ++ cs))) rest := by
    intro pos body cs insides hbody ih
    obtain ⟨tags, htags, hread⟩ := ih (pos + width ('<' :: body))
    refine ⟨tags, htags, fun rest => ?_⟩
    rw [List.cons_append, List.append_assoc, pieces_passed (hbody _ _), hread, ← List.cons_append,
      width_append, Nat.add_assoc]
  induction h generalizing pos with
  | nil => exact ⟨[], rfl, fun rest => by simp [tagPieces]⟩
  | @text c cs insides hc _ ih =>
    obtain ⟨tags, htags, hread⟩ := ih (pos + c.utf8Size)
    refine ⟨tags, htags, fun rest => ?_⟩
    rw [List.cons_append, pieces_text hc, hread, width_cons, Nat.add_assoc]
  | @start c inside cs insides hopens hinside _ ih =>
    obtain ⟨tags, htags, hread⟩ := ih (pos + width ('<' :: (c :: inside ++ ['>'])))
    refine ⟨(c :: inside, pos + 1 + width (c :: inside) + 1) :: tags, by simp [htags],
      fun rest => ?_⟩
    have hpiece : readPiece (pos + 1) ((c :: inside ++ ['>']) ++ (cs ++ rest))
        = (some (.tag (c :: inside) (pos + 1 + width (c :: inside) + 1)),
          (c :: inside ++ ['>']).length) := by
      simpa using readPiece_start hopens hinside (pos + 1) (cs ++ rest)
    have htext : '<' :: (c :: inside ++ '>' :: cs) ++ rest
        = '<' :: ((c :: inside ++ ['>']) ++ (cs ++ rest)) := by simp
    have hwidth : pos + width ('<' :: (c :: inside ++ '>' :: cs))
        = pos + width ('<' :: (c :: inside ++ ['>'])) + width cs := by
      simp only [width_cons, width_append, width_nil]
      omega
    rw [htext, pieces_tag hpiece, hread, hwidth]
    rfl
  | @stop text cs insides htext _ ih =>
    have hread := hpassed pos ('/' :: (text ++ ['>'])) cs insides
      (fun here rest => by simpa using readPiece_stop htext here rest) ih
    simpa using hread
  | @bang text cs insides mayEnd check hbegins htext hcheck _ ih =>
    have hread := hpassed pos ('!' :: (text ++ ['>'])) cs insides
      (fun here rest => by simpa using readPiece_bang hbegins htext hcheck here rest) ih
    simpa using hread
  | @instruction text cs insides htext hlength hlast _ ih =>
    have hread := hpassed pos ('?' :: (text ++ ['>'])) cs insides
      (fun here rest => by simpa using readPiece_instruction htext hlength hlast here rest) ih
    simpa using hread

/-! ## Elements -/

theorem elementsOf_append (ps qs : List Piece) :
    elementsOf (ps ++ qs) = (do
      let found ← elementsOf ps
      let more ← elementsOf qs
      return found ++ more) := by
  induction ps with
  | nil => cases h : elementsOf qs <;> simp [elementsOf, h, bind, Except.bind, pure, Except.pure]
  | cons p ps ih =>
    cases p with
    | fault e => rfl
    | tag inside stop =>
      rw [List.cons_append, elementsOf, elementsOf, ih]
      cases elementOf inside with
      | error fault => rfl
      | ok c =>
        cases elementsOf ps with
        | error e => rfl
        | ok found => cases elementsOf qs <;> rfl

theorem elementsOf_tagPieces {tags : List (List Char × Nat)} {found : List Compound}
    (h : (tags.map Prod.fst).map elementOf = found.map .ok) :
    elementsOf (tagPieces tags) = .ok found := by
  induction tags generalizing found with
  | nil =>
    cases found with
    | nil => rfl
    | cons c found => cases h
  | cons t tags ih =>
    cases found with
    | nil => cases h
    | cons c found =>
      simp only [List.map_cons, List.cons.injEq] at h
      have hrest : elementsOf (tagPieces tags) = .ok found := ih h.2
      have htags : tagPieces (t :: tags) = .tag t.1 t.2 :: tagPieces tags := rfl
      rw [htags, elementsOf, h.1, hrest]
      rfl

/-- Complete constructs offer one element for each of their start tags. -/
theorem Complete.elementsOf_eq {cs : List Char} {insides : List (List Char)}
    (h : Complete cs insides) {found : List Compound}
    (hfound : insides.map elementOf = found.map .ok) (pos : Nat) :
    elementsOf (pieces pos cs) = .ok found := by
  obtain ⟨tags, htags, hread⟩ := h.reads pos
  have hpieces : pieces pos cs = tagPieces tags := by
    have hend := hread []
    rwa [List.append_nil, pieces_of_not_mem (List.not_mem_nil : '<' ∉ []), List.append_nil] at hend
  rw [hpieces]
  exact elementsOf_tagPieces (htags ▸ hfound)

end StyleSieve.Markup
