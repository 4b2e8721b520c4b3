import StyleSieve.Proofs.Css.Forest
import StyleSieve.Proofs.Css.Lexing
import StyleSieve.Proofs.Text.LetterCase

/-!
# Tokens and letter case

Which tokens a text has does not depend on the case of its ASCII letters: a text in lower case is cut
at the same places into tokens of the same kinds, with names and texts that differ in letter case at
most (`lexemes_lowered`), and its trees have the same shape (`ofText_lowered`). Texts are not in lower
case throughout even then, for an escape may still stand for a capital.
-/

namespace StyleSieve.Css

open Text (lowerAscii apply_toLower toLower_eq_self_or toLower_toLower)

/-- A text with its ASCII letters in lower case. -/
def lowered (cs : List Char) : List Char := cs.map Char.toLower

section

variable {c d : Char} {cs ds : List Char} {p : Char → Bool}

@[simp] theorem lowered_nil : lowered [] = [] := rfl

@[simp] theorem lowered_cons (c : Char) (cs : List Char) :
    lowered (c :: cs) = c.toLower :: lowered cs := rfl

@[simp] theorem lowered_lowered (cs : List Char) : lowered (lowered cs) = lowered cs := by
  simp [lowered, Function.comp_def]

@[simp] theorem lowered_eq_nil_iff : lowered cs = [] ↔ cs = [] := List.map_eq_nil_iff

@[simp] theorem isEmpty_lowered (cs : List Char) : (lowered cs).isEmpty = cs.isEmpty := List.isEmpty_map

@[simp] theorem length_lowered (cs : List Char) : (lowered cs).length = cs.length := List.length_map ..

theorem drop_lowered (n : Nat) (cs : List Char) : (lowered cs).drop n = lowered (cs.drop n) :=
  List.map_drop.symm

theorem take_lowered (n : Nat) (cs : List Char) : (lowered cs).take n = lowered (cs.take n) :=
  List.map_take.symm

theorem lowerAscii_ofList (cs : List Char) :
    lowerAscii (String.ofList cs) = String.ofList (lowered cs) := by
  simp [lowerAscii, lowered]

/-- A token with its names and texts in lower case. -/
def Token.lowered : Token → Token
  | ident name => ident (lowerAscii name)
  | atKeyword name => atKeyword (lowerAscii name)
  | hash name => hash (lowerAscii name)
  | idHash name => idHash (lowerAscii name)
  | quoted value => quoted (lowerAscii value)
  | url value => url (lowerAscii value)
  | delim c => delim c.toLower
  | dimension value unit => dimension value (lowerAscii unit)
  | whitespace text => whitespace (lowerAscii text)
  | comment text => comment (lowerAscii text)
  | function name => function (lowerAscii name)
  | badUrl text => badUrl (lowerAscii text)
  | badString value => badString (lowerAscii value)
  | token => token

theorem lowerAscii_eq_of_lowered (h : lowered cs = lowered ds) :
    lowerAscii (String.ofList cs) = lowerAscii (String.ofList ds) := by
  rw [lowerAscii_ofList, lowerAscii_ofList, h]

/-! ## Classes of characters -/

theorem toLower_eq_iff (hd : d.isAlpha = false) : c.toLower = d ↔ c = d := by
  have hletters : ∀ n < 26, (Char.ofNat (n + 0x61)).isAlpha = true ∧
      (Char.ofNat (n + 0x41)).isAlpha = true := by decide
  refine decide_eq_decide.1 (apply_toLower (fun c => decide (c = d)) (fun n hn => ?_) c)
  obtain ⟨hsmall, hcapital⟩ := hletters n hn
  have hne : ∀ e : Char, e.isAlpha = true → e ≠ d := by
    rintro e he rfl
    simp [hd] at he
  simp [hne _ hsmall, hne _ hcapital]

theorem toLower_beq (hd : d.isAlpha = false) : (c.toLower == d) = (c == d) := by
  rw [Bool.eq_iff_iff, beq_iff_eq, beq_iff_eq, toLower_eq_iff hd]

@[simp] theorem isNewline_toLower (c : Char) : isNewline c.toLower = isNewline c :=
  apply_toLower isNewline (by decide) c

@[simp] theorem isSpace_toLower (c : Char) : isSpace c.toLower = isSpace c :=
  apply_toLower isSpace (by decide) c

@[simp] theorem isNameStart_toLower (c : Char) : isNameStart c.toLower = isNameStart c :=
  apply_toLower isNameStart (by decide) c

@[simp] theorem isNameChar_toLower (c : Char) : isNameChar c.toLower = isNameChar c :=
  apply_toLower isNameChar (by decide) c

@[simp] theorem isDigit_toLower (c : Char) : c.toLower.isDigit = c.isDigit :=
  apply_toLower Char.isDigit (by decide) c

@[simp] theorem isHexDigit_toLower (c : Char) : Text.isHexDigit c.toLower = Text.isHexDigit c :=
  apply_toLower Text.isHexDigit (by decide) c

@[simp] theorem hexValue_toLower (c : Char) : Text.hexValue c.toLower = Text.hexValue c :=
  apply_toLower Text.hexValue (by decide) c

@[simp] theorem breaksAddress_toLower (c : Char) : breaksAddress c.toLower = breaksAddress c :=
  apply_toLower breaksAddress (by decide) c

@[simp] theorem shownChar_toLower (c : Char) : shownChar c.toLower = (shownChar c).toLower := by
  by_cases hc : c = '\x00'
  · subst hc
    decide
  · have hlower : c.toLower ≠ '\x00' := mt (toLower_eq_iff (by decide)).1 hc
    simp [shownChar, hc, hlower]

theorem startsWith_lowered (hp : ∀ c, p c.toLower = p c) (cs : List Char) :
    startsWith p (lowered cs) = startsWith p cs := by
  cases cs with
  | nil => rfl
  | cons c cs => exact hp c

theorem takeWhile_lowered (hp : ∀ c, p c.toLower = p c) (cs : List Char) :
    (lowered cs).takeWhile p = lowered (cs.takeWhile p) := by
  rw [lowered, List.takeWhile_map, show p ∘ Char.toLower = p from funext hp]
  rfl

theorem dropWhile_lowered (hp : ∀ c, p c.toLower = p c) (cs : List Char) :
    (lowered cs).dropWhile p = lowered (cs.dropWhile p) := by
  rw [lowered, List.dropWhile_map, show p ∘ Char.toLower = p from funext hp]
  rfl

/-- A text of marks reads the same in every letter case. -/
theorem lowered_eq_iff {ms : List Char} (hms : ms.any Char.isAlpha = false) :
    lowered cs = ms ↔ cs = ms := by
  induction ms generalizing cs with
  | nil => exact lowered_eq_nil_iff
  | cons m ms ih =>
    rw [List.any_cons, Bool.or_eq_false_iff] at hms
    cases cs with
    | nil => simp
    | cons c cs =>
      rw [lowered_cons, List.cons.injEq, List.cons.injEq, toLower_eq_iff hms.1, ih hms.2]

end

/-! ## Escapes and names -/

theorem newlineLength_lowered (cs : List Char) : newlineLength (lowered cs) = newlineLength cs := by
  cases cs with
  | nil => rfl
  | cons c cs =>
    have hfeed := startsWith_lowered (p := (· == '\n')) (fun _ => toLower_beq (by decide)) cs
    have hreturn : c.toLower = '\r' ↔ c = '\r' := toLower_eq_iff (by decide)
    rw [lowered_cons, newlineLength_cons, newlineLength_cons]
    simp only [hreturn, hfeed, isNewline_toLower]

theorem spaceLength_lowered (cs : List Char) : spaceLength (lowered cs) = spaceLength cs := by
  rw [spaceLength, spaceLength, startsWith_lowered isNewline_toLower,
    startsWith_lowered isSpace_toLower, newlineLength_lowered]

theorem hexNumber_lowered (ds : List Char) : Text.hexNumber (lowered ds) = Text.hexNumber ds := by
  simp [Text.hexNumber, lowered, List.foldl_map]

theorem readEscape_lowered (cs : List Char) :
    (readEscape (lowered cs)).1.toLower = (readEscape cs).1.toLower ∧
      (readEscape (lowered cs)).2 = (readEscape cs).2 := by
  cases cs with
  | nil => exact ⟨rfl, rfl⟩
  | cons c cs =>
    have hdigits : ((lowered (c :: cs)).take 6).takeWhile Text.isHexDigit
        = lowered (((c :: cs).take 6).takeWhile Text.isHexDigit) := by
      rw [take_lowered, takeWhile_lowered isHexDigit_toLower]
    rw [lowered_cons] at hdigits ⊢
    rw [readEscape, readEscape]
    simp only [hdigits, isEmpty_lowered]
    split
    · simp
    · rw [← lowered_cons, hexNumber_lowered, length_lowered, drop_lowered, spaceLength_lowered]
      exact ⟨rfl, rfl⟩

theorem readNameChar_lowered (c : Char) (cs : List Char) :
    (readNameChar c.toLower (lowered cs)).map (Prod.map Char.toLower id) =
      (readNameChar c cs).map (Prod.map Char.toLower id) := by
  obtain ⟨hvalue, hlength⟩ := readEscape_lowered cs
  rw [readNameChar, readNameChar, toLower_beq (by decide), startsWith_lowered isNewline_toLower,
    isNameChar_toLower]
  split
  · split
    · rfl
    · simp [Prod.map, hvalue, hlength]
  · split
    · simp
    · rfl

theorem readName_lowered (cs : List Char) :
    lowered (readName (lowered cs)).1 = lowered (readName cs).1 ∧
      (readName (lowered cs)).2 = (readName cs).2 := by
  fun_induction readName cs with
  | case1 => simp [readName]
  | case2 c cs hnone =>
    have hfirst := readNameChar_lowered c cs
    rw [hnone, Option.map_none, Option.map_eq_none_iff] at hfirst
    rw [lowered_cons, readName, hfirst]
    exact ⟨rfl, rfl⟩
  | case3 c cs value n hsome rest ih =>
    have hfirst := readNameChar_lowered c cs
    rw [hsome, Option.map_some, Option.map_eq_some_iff] at hfirst
    obtain ⟨⟨value', n'⟩, hsome', hpair⟩ := hfirst
    obtain ⟨hvalue, rfl⟩ := Prod.mk.inj hpair
    rw [lowered_cons, readName, hsome']
    simp only [drop_lowered, lowered_cons, id_eq] at ih hvalue ⊢
    rw [ih.1, ih.2, hvalue]
    exact ⟨rfl, rfl⟩

/-! ## Strings, comments and addresses -/

theorem readString_lowered {quote : Char} (hquote : quote.isAlpha = false) (cs : List Char) :
    lowered (readString quote (lowered cs)).1 = lowered (readString quote cs).1 ∧
      (readString quote (lowered cs)).2 = (readString quote cs).2 := by
  have hback : ∀ c : Char, (c.toLower == '\\') = (c == '\\') := fun c => toLower_beq (by decide)
  fun_induction readString quote cs with
  | case1 => simp [readString]
  | case2 c cs hc =>
    rw [lowered_cons, readString]
    simp [toLower_beq hquote, hc]
  | case3 c cs hc hnewline =>
    rw [lowered_cons, readString]
    simp [toLower_beq hquote, hc, hnewline]
  | case4 c cs hc hnewline hescape hempty =>
    rw [lowered_cons, readString]
    simp [toLower_beq hquote, hc, hnewline, hback, hescape, hempty]
  | case5 c cs hc hnewline hescape hempty hbreak n rest ih =>
    rw [lowered_cons, readString]
    simp only [toLower_beq hquote, hc, isNewline_toLower, hnewline, hback, hescape, isEmpty_lowered,
      hempty, startsWith_lowered isNewline_toLower, hbreak, newlineLength_lowered, drop_lowered]
    exact ⟨ih.1, congrArg (fun rest => (n + 1 + rest.1, rest.2)) ih.2⟩
  | case6 c cs hc hnewline hescape hempty hbreak escape rest ih =>
    obtain ⟨hvalue, hlength⟩ := readEscape_lowered cs
    rw [lowered_cons, readString]
    simp only [toLower_beq hquote, hc, isNewline_toLower, hnewline, hback, hescape, isEmpty_lowered,
      hempty, startsWith_lowered isNewline_toLower, hbreak, hlength, drop_lowered]
    exact ⟨congrArg₂ List.cons hvalue ih.1,
      congrArg (fun rest => (escape.2 + 1 + rest.1, rest.2)) ih.2⟩
  | case7 c cs hc hnewline hescape rest ih =>
    rw [lowered_cons, readString]
    simp only [toLower_beq hquote, hc, isNewline_toLower, hnewline, hback, hescape, shownChar_toLower]
    exact ⟨congrArg₂ List.cons (toLower_toLower _) ih.1,
      congrArg (fun rest => (1 + rest.1, rest.2)) ih.2⟩

theorem readComment_lowered (cs : List Char) :
    lowered (readComment (lowered cs)).1 = lowered (readComment cs).1 ∧
      (readComment (lowered cs)).2 = (readComment cs).2 := by
  induction cs with
  | nil => exact ⟨rfl, rfl⟩
  | cons c cs ih =>
    cases cs with
    | nil => simp [readComment]
    | cons d cs =>
      have hend : (c.toLower = '*' ∧ d.toLower = '/') ↔ (c = '*' ∧ d = '/') := by
        rw [toLower_eq_iff (by decide), toLower_eq_iff (by decide)]
      rw [lowered_cons, lowered_cons, readComment_cons_cons, readComment_cons_cons]
      simp only [hend]
      split
      · exact ⟨rfl, rfl⟩
      · exact ⟨congrArg₂ List.cons (toLower_toLower c) ih.1, congrArg (1 + ·) ih.2⟩

theorem malformedLength_cons {c : Char} {cs : List Char} (hclose : c ≠ ')')
    (hescape : c = '\\' → ∀ d ∈ cs.head?, d ≠ ')' ∧ d ≠ '\\') :
    malformedLength (c :: cs) = 1 + malformedLength cs := by
  rw [malformedLength]
  · exact hclose
  · rintro tail hc rfl
    exact (hescape hc ')' rfl).1 rfl
  · rintro tail hc rfl
    exact (hescape hc '\\' rfl).2 rfl

theorem malformedLength_lowered (cs : List Char) :
    malformedLength (lowered cs) = malformedLength cs := by
  fun_induction malformedLength cs with
  | case1 => rfl
  | case2 => rfl
  | case3 cs ih => exact congrArg (2 + ·) ih
  | case4 cs ih => exact congrArg (2 + ·) ih
  | case5 c cs hclose hbracket hback ih =>
    rw [lowered_cons, malformedLength_cons (mt (toLower_eq_iff (by decide)).1 hclose), ih]
    intro hc d hd
    rw [toLower_eq_iff (by decide)] at hc
    cases cs with
    | nil => simp at hd
    | cons e cs =>
      obtain rfl := Option.some.inj hd
      rw [ne_eq, toLower_eq_iff (by decide), ne_eq, toLower_eq_iff (by decide)]
      exact ⟨fun he => hbracket cs hc (by rw [he]), fun he => hback cs hc (by rw [he])⟩

/-- Behind the spaces of an address only its closing bracket may stand. -/
def afterSpaces (blank : Nat) (cs : List Char) : Option (List Char) × Nat :=
  match cs with
  | [] => (some [], blank + 1)
  | ')' :: _ => (some [], blank + 2)
  | _ :: _ => (none, blank + 2)

theorem afterSpaces_lowered (blank : Nat) (cs : List Char) :
    afterSpaces blank (lowered cs) = afterSpaces blank cs := by
  cases cs with
  | nil => rfl
  | cons c cs =>
    by_cases hc : c = ')'
    · subst hc
      rfl
    · have hlower : c.toLower ≠ ')' := mt (toLower_eq_iff (by decide)).1 hc
      rw [lowered_cons, afterSpaces, afterSpaces]
      · exact hc
      · exact hlower

theorem map_cons_lowered {c d : Char} {o o' : Option (List Char)} (hc : c.toLower = d.toLower)
    (ho : o.map lowered = o'.map lowered) :
    (o.map (c :: ·)).map lowered = (o'.map (d :: ·)).map lowered := by
  cases o <;> cases o' <;> simp_all

theorem readAddress_lowered (cs : List Char) :
    (readAddress (lowered cs)).1.map lowered = (readAddress cs).1.map lowered ∧
      (readAddress (lowered cs)).2 = (readAddress cs).2 := by
  induction hn : cs.length using Nat.strongRecOn generalizing cs with
  | ind n ih =>
    cases cs with
    | nil => simp [readAddress]
    | cons c cs =>
      -- the rest after one character of the address is covered by the induction
      have hshorter : ∀ k, (cs.drop k).length < n := fun k => by
        rw [← hn, List.length_drop, List.length_cons]
        omega
      have hrest := fun k => ih (cs.drop k).length (hshorter k) (cs.drop k) rfl
      have hspace' := isSpace_toLower c
      have hclose' : (c.toLower == ')') = (c == ')') := toLower_beq (by decide)
      have hback' : (c.toLower == '\\') = (c == '\\') := toLower_beq (by decide)
      have hbreaks' := breaksAddress_toLower c
      rw [lowered_cons]
      cases hspace : isSpace c with
      | true =>
        have hspaces : readAddress (c.toLower :: lowered cs) = readAddress (c :: cs) := by
          rw [readAddress_space (hspace'.trans hspace), readAddress_space hspace,
            dropWhile_lowered isSpace_toLower, takeWhile_lowered isSpace_toLower, length_lowered]
          exact afterSpaces_lowered _ _
        rw [hspaces]
        exact ⟨rfl, rfl⟩
      | false =>
      cases hclose : c == ')' with
      | true =>
        rw [readAddress, readAddress]
        simp [hspace, hclose, hclose']
      | false =>
      cases hbreaks : breaksAddress c with
      | true =>
        rw [readAddress_breaks (hspace'.trans hspace) (hclose'.trans hclose)
          (hbreaks'.trans hbreaks), readAddress_breaks hspace hclose hbreaks]
        exact ⟨rfl, rfl⟩
      | false =>
      cases hback : c == '\\' with
      | true =>
        obtain ⟨hvalue, hlength⟩ := readEscape_lowered cs
        rw [readAddress_escape (hspace'.trans hspace) (hclose'.trans hclose)
          (hbreaks'.trans hbreaks) (hback'.trans hback),
          readAddress_escape hspace hclose hbreaks hback, startsWith_lowered isNewline_toLower,
          hlength, drop_lowered]
        split
        · exact ⟨rfl, rfl⟩
        · obtain ⟨haddress, hwidth⟩ := hrest (readEscape cs).2
          exact ⟨map_cons_lowered hvalue haddress, congrArg ((readEscape cs).2 + 1 + ·) hwidth⟩
      | false =>
        rw [readAddress_plain (hspace'.trans hspace) (hclose'.trans hclose)
          (hbreaks'.trans hbreaks) (hback'.trans hback),
          readAddress_plain hspace hclose hbreaks hback]
        obtain ⟨haddress, hwidth⟩ := hrest 0
        refine ⟨map_cons_lowered ?_ haddress, congrArg (1 + ·) hwidth⟩
        rw [shownChar_toLower, toLower_toLower]

theorem readBare_lowered (cs : List Char) :
    (readBare (lowered cs)).1.lowered = (readBare cs).1.lowered ∧
      (readBare (lowered cs)).2 = (readBare cs).2 := by
  obtain ⟨haddress, hlength⟩ := readAddress_lowered cs
  cases hread : readAddress cs with
  | mk value n =>
    cases hread' : readAddress (lowered cs) with
    | mk value' n' =>
      rw [hread, hread'] at haddress hlength
      obtain rfl : n' = n := hlength
      cases value with
      | some value =>
        obtain ⟨value', rfl, hvalue⟩ := Option.map_eq_some_iff.1 haddress
        rw [readBare_of_some hread, readBare_of_some hread']
        exact ⟨congrArg Token.url (lowerAscii_eq_of_lowered hvalue), rfl⟩
      | none =>
        obtain rfl := Option.map_eq_none_iff.1 haddress
        rw [readBare_of_none hread, readBare_of_none hread']
        simp only [drop_lowered, malformedLength_lowered, isEmpty_lowered, take_lowered]
        exact ⟨congrArg Token.badUrl (lowerAscii_eq_of_lowered (lowered_lowered _)), trivial⟩

theorem readUrl_lowered {name name' : List Char} (hname : lowered name' = lowered name)
    (cs : List Char) :
    (readUrl name' (lowered cs)).1.lowered = (readUrl name cs).1.lowered ∧
      (readUrl name' (lowered cs)).2 = (readUrl name cs).2 := by
  have hdrop := dropWhile_lowered isSpace_toLower cs
  have htake := takeWhile_lowered isSpace_toLower cs
  cases hbody : cs.dropWhile isSpace with
  | nil =>
    rw [hbody, lowered_nil] at hdrop
    rw [readUrl_of_nil hdrop, readUrl_of_nil hbody, htake, length_lowered]
    exact ⟨rfl, rfl⟩
  | cons c body =>
    rw [hbody, lowered_cons] at hdrop
    have hquote : (c.toLower = '"' ∨ c.toLower = '\'') ↔ (c = '"' ∨ c = '\'') := by
      rw [toLower_eq_iff (by decide), toLower_eq_iff (by decide)]
    obtain ⟨htoken, hlength⟩ := readBare_lowered (c :: body)
    rw [readUrl_of_cons hdrop, readUrl_of_cons hbody, htake, length_lowered]
    simp only [hquote]
    split
    · exact ⟨congrArg Token.function (lowerAscii_eq_of_lowered hname), rfl⟩
    · exact ⟨htoken, congrArg (_ + ·) hlength⟩

theorem readIdentLike_lowered (cs : List Char) :
    (readIdentLike (lowered cs)).1.lowered = (readIdentLike cs).1.lowered ∧
      (readIdentLike (lowered cs)).2 = (readIdentLike cs).2 := by
  obtain ⟨hname, hlength⟩ := readName_lowered cs
  by_cases hbracket : ∃ rest, cs.drop (readName cs).2 = '(' :: rest
  · obtain ⟨rest, hrest⟩ := hbracket
    have hrest' : (lowered cs).drop (readName (lowered cs)).2 = '(' :: lowered rest := by
      rw [hlength, drop_lowered, hrest]
      rfl
    have hurl : Text.sameAscii (String.ofList (readName (lowered cs)).1) "url"
        = Text.sameAscii (String.ofList (readName cs).1) "url" := by
      rw [Text.sameAscii, lowerAscii_eq_of_lowered hname, Text.sameAscii]
    rw [readIdentLike_of_bracket hrest, readIdentLike_of_bracket hrest', hurl, hlength]
    split
    · obtain ⟨htoken, hwidth⟩ := readUrl_lowered hname rest
      exact ⟨htoken, congrArg (_ + ·) hwidth⟩
    · exact ⟨congrArg Token.function (lowerAscii_eq_of_lowered hname), rfl⟩
  · have hnone : ∀ rest, cs.drop (readName cs).2 ≠ '(' :: rest := by simpa using hbracket
    have hnone' : ∀ rest, (lowered cs).drop (readName (lowered cs)).2 ≠ '(' :: rest := by
      intro rest hrest
      rw [hlength, drop_lowered] at hrest
      cases hcs : cs.drop (readName cs).2 with
      | nil => simp [hcs] at hrest
      | cons c more =>
        rw [hcs, lowered_cons] at hrest
        have hc := (toLower_eq_iff (by decide)).1 (List.cons.inj hrest).1
        exact hnone more (hc ▸ hcs)
    rw [readIdentLike_of_no_bracket hnone, readIdentLike_of_no_bracket hnone', hlength]
    exact ⟨congrArg Token.ident (lowerAscii_eq_of_lowered hname), rfl⟩

/-! ## Numbers -/

theorem digitRun_lowered (cs : List Char) : digitRun (lowered cs) = digitRun cs := by
  rw [digitRun, takeWhile_lowered isDigit_toLower, lowered, List.map_map, digitRun]
  refine List.map_congr_left fun c hc => ?_
  have hdigit : c.isDigit = true := List.all_eq_true.1 List.all_takeWhile c hc
  have hstart := not_isNameStart_of_isDigit hdigit
  have halpha : c.isAlpha = false := by
    simp only [isNameStart, Bool.or_eq_false_iff] at hstart
    exact hstart.1.1
  rw [Function.comp_apply, (toLower_eq_iff halpha).2 rfl]

theorem readSign_lowered (cs : List Char) : readSign (lowered cs) = readSign cs := by
  cases cs with
  | nil => rfl
  | cons c cs =>
    by_cases hminus : c = '-'
    · subst hminus
      rfl
    by_cases hplus : c = '+'
    · subst hplus
      rfl
    rw [lowered_cons, readSign_of_ne hminus hplus]
    exact readSign_of_ne (mt (toLower_eq_iff (by decide)).1 hminus)
      (mt (toLower_eq_iff (by decide)).1 hplus) _

theorem startsDigits_lowered (cs : List Char) : startsDigits (lowered cs) = startsDigits cs := by
  cases cs with
  | nil => rfl
  | cons c cs =>
    by_cases hpoint : c = '.'
    · subst hpoint
      exact startsWith_lowered isDigit_toLower cs
    rw [lowered_cons, startsDigits_of_ne hpoint,
      startsDigits_of_ne (mt (toLower_eq_iff (by decide)).1 hpoint), isDigit_toLower]

theorem startsNumber_lowered (cs : List Char) : startsNumber (lowered cs) = startsNumber cs := by
  rw [startsNumber, readSign_lowered, drop_lowered, startsDigits_lowered, startsNumber]

theorem readFraction_lowered (cs : List Char) : readFraction (lowered cs) = readFraction cs := by
  cases cs with
  | nil => rfl
  | cons c cs =>
    have hpoint : c.toLower = '.' ↔ c = '.' := toLower_eq_iff (by decide)
    rw [lowered_cons, readFraction_cons, readFraction_cons]
    simp only [hpoint, startsWith_lowered isDigit_toLower, digitRun_lowered]

theorem readExponent_lowered (cs : List Char) : readExponent (lowered cs) = readExponent cs := by
  cases cs with
  | nil => rfl
  | cons c cs =>
    have hletter : (c.toLower == 'e' || c.toLower == 'E') = (c == 'e' || c == 'E') :=
      apply_toLower (fun c => c == 'e' || c == 'E') (by decide) c
    rw [lowered_cons, readExponent, readExponent]
    simp only [hletter, readSign_lowered, drop_lowered, digitRun_lowered]

theorem readNumeral_lowered (cs : List Char) : readNumeral (lowered cs) = readNumeral cs := by
  rw [readNumeral, readNumeral]
  simp only [readSign_lowered, drop_lowered, digitRun_lowered, readFraction_lowered,
    readExponent_lowered]

theorem startsIdent_lowered (cs : List Char) : startsIdent (lowered cs) = startsIdent cs := by
  cases cs with
  | nil => rfl
  | cons c cs =>
    by_cases hyphen : c = '-'
    · subst hyphen
      have hlower : ('-' : Char).toLower = '-' := rfl
      rw [lowered_cons, hlower, startsIdent_hyphen, startsIdent_hyphen]
      refine startsWith_lowered (fun c => ?_) cs
      rw [isNameStart_toLower, toLower_beq (by decide), toLower_beq (by decide)]
    by_cases hback : c = '\\'
    · subst hback
      exact congrArg (!·) (startsWith_lowered isNewline_toLower cs)
    rw [lowered_cons, startsIdent_of_ne hyphen hback,
      startsIdent_of_ne (mt (toLower_eq_iff (by decide)).1 hyphen)
        (mt (toLower_eq_iff (by decide)).1 hback), isNameStart_toLower]

theorem readNumeric_lowered (cs : List Char) :
    (readNumeric (lowered cs)).1.lowered = (readNumeric cs).1.lowered ∧
      (readNumeric (lowered cs)).2 = (readNumeric cs).2 := by
  have hpercent := startsWith_lowered (p := (· == '%')) (fun _ => toLower_beq (by decide))
    (cs.drop (readNumeral cs).2)
  obtain ⟨hunit, hlength⟩ := readName_lowered (cs.drop (readNumeral cs).2)
  rw [readNumeric, readNumeric]
  simp only [readNumeral_lowered, drop_lowered, hpercent, startsIdent_lowered, hlength]
  split
  · exact ⟨rfl, rfl⟩
  split
  · exact ⟨congrArg (Token.dimension _) (lowerAscii_eq_of_lowered hunit), rfl⟩
  · exact ⟨rfl, rfl⟩

/-! ## Tokens -/

theorem readMatch_lowered (c : Char) (token : Token) (cs : List Char) :
    readMatch c token (lowered cs) = readMatch c token cs := by
  cases cs with
  | nil => rfl
  | cons d cs =>
    by_cases hd : d = '='
    · subst hd
      rfl
    have hlower : d.toLower ≠ '=' := mt (toLower_eq_iff (by decide)).1 hd
    rw [lowered_cons, readMatch, readMatch]
    · exact fun _ heq => hd (List.cons.inj heq).1
    · exact fun _ heq => hlower (List.cons.inj heq).1

theorem readHash_lowered (cs : List Char) :
    (readHash (lowered cs)).1.lowered = (readHash cs).1.lowered ∧
      (readHash (lowered cs)).2 = (readHash cs).2 := by
  obtain ⟨hname, hlength⟩ := readName_lowered cs
  have hdigit : startsWith (fun c => c.isDigit || c == '-') (lowered cs)
      = startsWith (fun c => c.isDigit || c == '-') cs :=
    startsWith_lowered (fun c => by rw [isDigit_toLower, toLower_beq (by decide)]) cs
  rw [readHash, readHash, startsIdent_lowered, hdigit, hlength]
  split
  · exact ⟨congrArg Token.idHash (lowerAscii_eq_of_lowered hname), rfl⟩
  split
  · exact ⟨congrArg Token.hash (lowerAscii_eq_of_lowered hname), rfl⟩
  · exact ⟨rfl, rfl⟩

theorem readMark_slash_lowered (cs : List Char) :
    (readMark '/' (lowered cs)).1.lowered = (readMark '/' cs).1.lowered ∧
      (readMark '/' (lowered cs)).2 = (readMark '/' cs).2 := by
  have hstar := startsWith_lowered (p := (· == '*')) (fun _ => toLower_beq (by decide)) cs
  cases hcs : startsWith (· == '*') cs with
  | false =>
    rw [readMark_slash hcs, readMark_slash (hstar.trans hcs)]
    exact ⟨rfl, rfl⟩
  | true =>
    cases cs with
    | nil => simp at hcs
    | cons c cs =>
      obtain rfl : c = '*' := by simpa using hcs
      obtain ⟨hbody, hlength⟩ := readComment_lowered cs
      have hlower : ('*' : Char).toLower = '*' := rfl
      rw [lowered_cons, hlower, readMark_slash_star, readMark_slash_star]
      exact ⟨congrArg Token.comment (lowerAscii_eq_of_lowered hbody), congrArg (1 + ·) hlength⟩

/-- The mark itself is no letter, so only what follows it can be in another letter case. -/
theorem readMark_lowered (c : Char) (cs : List Char) :
    (readMark c (lowered cs)).1.lowered = (readMark c cs).1.lowered ∧
      (readMark c (lowered cs)).2 = (readMark c cs).2 := by
  unfold readMark
  split
  case h_1 => exact readHash_lowered cs
  case h_11 | h_12 | h_13 | h_14 | h_15 =>
    rw [readMatch_lowered]
    exact ⟨rfl, rfl⟩
  case h_16 =>
    have hopen : (lowered cs).take 3 = ['!', '-', '-'] ↔ cs.take 3 = ['!', '-', '-'] := by
      rw [take_lowered, lowered_eq_iff rfl]
    simp only [hopen, and_self]
  case h_17 => exact readMark_slash_lowered cs
  case h_18 =>
    obtain ⟨hname, hlength⟩ := readName_lowered cs
    rw [startsIdent_lowered]
    split
    · exact ⟨congrArg Token.atKeyword (lowerAscii_eq_of_lowered hname), hlength⟩
    · exact ⟨rfl, rfl⟩
  all_goals exact ⟨rfl, rfl⟩

/-- Only a letter is in another letter case, and an identifier begins with every letter. -/
theorem toLower_of_not_startsIdent {c : Char} {cs : List Char} (h : startsIdent (c :: cs) = false) :
    c.toLower = c := by
  refine (toLower_eq_self_or c).resolve_right ?_
  rintro ⟨n, hn, hc, -⟩
  have hletters : ∀ n < 26, Char.ofNat (n + 0x41) ≠ '-' ∧ Char.ofNat (n + 0x41) ≠ '\\' ∧
      isNameStart (Char.ofNat (n + 0x41)) = true := by decide
  obtain ⟨hyphen, hback, hstart⟩ := hletters n hn
  rw [← hc] at hyphen hback hstart
  rw [startsIdent_of_ne hyphen hback, hstart] at h
  cases h

theorem readToken_lowered (c : Char) (cs : List Char) :
    (readToken c.toLower (lowered cs)).1.lowered = (readToken c cs).1.lowered ∧
      (readToken c.toLower (lowered cs)).2 = (readToken c cs).2 := by
  have hquote : (c.toLower == '"' || c.toLower == '\'') = (c == '"' || c == '\'') := by
    rw [toLower_beq (by decide), toLower_beq (by decide)]
  have hclose : (c.toLower == '-' && decide ((lowered cs).take 2 = ['-', '>']))
      = (c == '-' && decide (cs.take 2 = ['-', '>'])) := by
    rw [toLower_beq (by decide), take_lowered]
    simp only [lowered_eq_iff (show ['-', '>'].any Char.isAlpha = false from rfl)]
  have hnumber := startsNumber_lowered (c :: cs)
  have hident := startsIdent_lowered (c :: cs)
  rw [lowered_cons] at hnumber hident
  rw [readToken, readToken, isSpace_toLower, hquote, hnumber, hclose, hident]
  split
  · rw [takeWhile_lowered isSpace_toLower]
    refine ⟨congrArg Token.whitespace (lowerAscii_eq_of_lowered ?_), length_lowered _⟩
    simp
  split
  · next hquoted =>
    have halpha : c.isAlpha = false := by
      rw [Bool.or_eq_true, beq_iff_eq, beq_iff_eq] at hquoted
      rcases hquoted with rfl | rfl <;> decide
    obtain ⟨hvalue, hlength⟩ := readString_lowered halpha cs
    simp only [(toLower_eq_iff halpha).2 rfl, hlength, and_true]
    split
    · exact congrArg Token.badString (lowerAscii_eq_of_lowered hvalue)
    · exact congrArg Token.quoted (lowerAscii_eq_of_lowered hvalue)
  split
  · obtain ⟨htoken, hlength⟩ := readNumeric_lowered (c :: cs)
    rw [lowered_cons] at htoken hlength
    simp only [htoken, hlength, and_self]
  split
  · exact ⟨rfl, rfl⟩
  split
  · obtain ⟨htoken, hlength⟩ := readIdentLike_lowered (c :: cs)
    rw [lowered_cons] at htoken hlength
    simp only [htoken, hlength, and_self]
  · next hstart =>
    rw [toLower_of_not_startsIdent (by simpa using hstart)]
    exact readMark_lowered c cs

/-! ## Lexemes -/

/-- A lexeme in lower case, with the text that it was read from. -/
def Lexeme.lowered (l : Lexeme) : Lexeme := ⟨l.token.lowered, Css.lowered l.raw⟩

/-- A text in lower case has the same lexemes up to letter case. -/
theorem lexemes_lowered (cs : List Char) :
    (lexemes (lowered cs)).map Lexeme.lowered = (lexemes cs).map Lexeme.lowered := by
  fun_induction lexemes cs with
  | case1 => simp
  | case2 c cs token ih =>
    obtain ⟨htoken, hlength⟩ := readToken_lowered c cs
    have hraw : Css.lowered (c.toLower :: (Css.lowered cs).take token.2)
        = Css.lowered (c :: cs.take token.2) := by
      simp [take_lowered]
    rw [lowered_cons, lexemes_cons, hlength, drop_lowered, List.map_cons, List.map_cons, ih,
      Lexeme.lowered, Lexeme.lowered, htoken, hraw]

/-! ## Trees -/

theorem Token.opens_lowered (token : Token) : token.lowered.opens = token.opens := by
  cases token <;> rfl

theorem Token.closes_lowered (token : Token) : token.lowered.closes = token.closes := by
  cases token <;> rfl

namespace Tree

mutual

/-- A tree with its lexemes in lower case. -/
def lowered : Tree → Tree
  | leaf l => leaf l.lowered
  | block head body close => block head.lowered (loweredOf body) (close.map Lexeme.lowered)

/-- Several trees with their lexemes in lower case. -/
def loweredOf : List Tree → List Tree
  | [] => []
  | t :: ts => t.lowered :: loweredOf ts

end

theorem loweredOf_eq_map (ts : List Tree) : loweredOf ts = ts.map lowered := by
  induction ts with
  | nil => rw [loweredOf, List.map_nil]
  | cons t ts ih => rw [loweredOf, ih, List.map_cons]

theorem token_lowered (t : Tree) : t.lowered.token = t.token.lowered := by
  cases t <;> simp [lowered, token, Lexeme.lowered]

mutual

theorem lexemes_of_lowered (t : Tree) : t.lowered.lexemes = t.lexemes.map Lexeme.lowered := by
  cases t with
  | leaf l => simp [lowered, lexemes]
  | block head body close => cases close <;> simp [lowered, lexemes, lexemesOf_lowered body]

theorem lexemesOf_lowered (ts : List Tree) :
    lexemesOf (loweredOf ts) = (lexemesOf ts).map Lexeme.lowered := by
  cases ts with
  | nil => simp [loweredOf]
  | cons t ts => simp [loweredOf, lexemes_of_lowered t, lexemesOf_lowered ts]

end

theorem Bracketed.lowered {within : Option Bracket} {ended : Bool} {ts : List Tree}
    (h : Bracketed within ended ts) : Bracketed within ended (loweredOf ts) := by
  induction h with
  | nil =>
    rw [loweredOf]
    exact .nil
  | leaf opens closes _ ih =>
    rw [loweredOf, Tree.lowered]
    exact .leaf ((Token.opens_lowered _).trans opens)
      (fun b hb => (Token.closes_lowered _).trans_ne (closes b hb)) ih
  | block opens closes _ _ ihInside ih =>
    rw [loweredOf, Tree.lowered]
    exact .block ((Token.opens_lowered _).trans opens) ((Token.closes_lowered _).trans closes)
      ihInside ih
  | unclosed opens _ ih =>
    rw [loweredOf, Tree.lowered, loweredOf]
    exact .unclosed ((Token.opens_lowered _).trans opens) ih

theorem forest_lowered (ls : List Lexeme) :
    forest (ls.map Lexeme.lowered) = loweredOf (forest ls) := by
  have hforest := forest_lexemesOf (bracketed_forest ls).lowered
  rwa [lexemesOf_lowered, forest_lexemes] at hforest

/-- A text in lower case has trees of the same shape. -/
theorem ofText_lowered (cs : List Char) :
    (ofText (Css.lowered cs)).map lowered = (ofText cs).map lowered := by
  rw [← loweredOf_eq_map, ← loweredOf_eq_map, ofText, ← forest_lowered, Css.lexemes_lowered,
    forest_lowered, ofText]

end Tree

end StyleSieve.Css
