import StyleSieve.Proofs.Css.Readers

/-!
# Reading lexemes again

A token is read without regard to what follows it, as long as nothing follows that could carry it on
(`readToken_exchange`). So lexemes are read again from their text wherever the last of them stops
(`Reads.exchange`).
-/

namespace StyleSieve.Css

section

variable {y y' : List Char}

/-! ## Tokens -/

theorem readMatch_append (h : Stops y) (c : Char) (token : Token) (u : List Char) :
    readMatch c token (u ++ y) = readMatch c token u := by
  cases u with
  | nil =>
    unfold readMatch
    split
    · next heq => exact absurd heq (h.head_ne (.inr (by decide)) _)
    · rfl
  | cons d u =>
    unfold readMatch
    split <;> simp_all

theorem readHash_exchange (hy : Exchange y y') {u : List Char}
    (h : Halts (readHash (u ++ y)).2 u y y') (hbreak : Unbroken (readHash (u ++ y)).2 u y) :
    readHash (u ++ y') = readHash (u ++ y) := by
  have hlone : startsWith isNewline y = true → u ≠ ['\\'] := by
    rintro hnewline rfl
    rw [readHash, startsIdent_lone hnewline, if_neg (by simp), if_neg (by simp [Char.isDigit])] at hbreak
    exact hbreak hnewline rfl
  have hident := startsIdent_append hy.stops hlone
  have hident' := startsIdent_append hy.stops' (u := u) fun hnewline => by
    simp [hy.unbroken] at hnewline
  have hp : ∀ c : Char, (c.isDigit || c == '-') = true → isNameChar c = true ∨ c ∈ carriers := by
    intro c hc
    simp only [Bool.or_eq_true, beq_iff_eq] at hc
    rcases hc with hc | rfl
    · exact .inl (isNameChar_of_isDigit hc)
    · exact .inl (by decide)
  rw [readHash] at h hbreak
  rw [readHash, readHash]
  simp only [hident, hident', startsWith_append_of_stops hy.stops hp,
    startsWith_append_of_stops hy.stops' hp] at h hbreak ⊢
  split
  · next hi =>
    rw [if_pos hi] at h hbreak
    rw [readName_exchange hy h hbreak]
  · next hi =>
    rw [if_neg hi] at h hbreak
    split
    · next hd =>
      rw [if_pos hd] at h hbreak
      rw [readName_exchange hy h hbreak]
    · rfl

theorem take_append_eq_iff (h : Stops y) {ds : List Char}
    (hds : ∀ d ∈ ds, isNameChar d = true ∨ d ∈ carriers) {u : List Char} :
    (u ++ y).take ds.length = ds ↔ u.take ds.length = ds := by
  induction ds generalizing u with
  | nil => simp
  | cons d ds ih =>
    cases u with
    | nil =>
      refine ⟨fun heq => ?_, fun heq => by simp at heq⟩
      cases y with
      | nil => simp at heq
      | cons c y =>
        obtain rfl : c = d := (List.cons.inj heq).1
        exact absurd rfl (h.head_ne (hds c List.mem_cons_self) y)
    | cons c u => simp [ih fun d hd => hds d (List.mem_cons_of_mem _ hd)]

theorem readMark_slash_star (cs : List Char) :
    readMark '/' ('*' :: cs) =
      (.comment (String.ofList (readComment cs).1), 1 + (readComment cs).2) := rfl

theorem readMark_slash {cs : List Char} (h : startsWith (· == '*') cs = false) :
    readMark '/' cs = (.delim '/', 0) := by
  cases cs with
  | nil => rfl
  | cons c rest =>
    have hstar : c ≠ '*' := by simpa using h
    simp only [readMark]
    split
    · next heq => exact absurd (List.cons.inj heq).1 hstar
    · rfl

theorem readMark_exchange (hy : Exchange y y') {c : Char} {u : List Char}
    (h : Halts (readMark c (u ++ y)).2 u y y') (hbreak : Unbroken (readMark c (u ++ y)).2 u y) :
    readMark c (u ++ y') = readMark c (u ++ y) := by
  revert h hbreak
  unfold readMark
  split <;> intro h hbreak
  case h_1 => exact readHash_exchange hy h hbreak
  case h_16 =>
    have hmarks : ∀ d ∈ ['!', '-', '-'], isNameChar d = true ∨ d ∈ carriers := by
      simp [carriers, isNameChar_hyphen]
    have hopen : (u ++ y).take 3 = ['!', '-', '-'] ↔ u.take 3 = ['!', '-', '-'] :=
      take_append_eq_iff hy.stops hmarks
    have hopen' : (u ++ y').take 3 = ['!', '-', '-'] ↔ u.take 3 = ['!', '-', '-'] :=
      take_append_eq_iff hy.stops' hmarks
    simp only [hopen, hopen']
  case h_17 =>
    change Halts (readMark '/' (u ++ y)).2 u y y' at h
    change readMark '/' (u ++ y') = readMark '/' (u ++ y)
    have hstar := fun {cs} (hcs : Stops cs) => startsWith_append_of_stops hcs (p := (· == '*'))
      (fun c hc => .inr (by simp_all [carriers])) u
    cases hu : startsWith (· == '*') u with
    | false =>
      rw [readMark_slash ((hstar hy.stops).trans hu), readMark_slash ((hstar hy.stops').trans hu)]
    | true =>
      cases u with
      | nil => simp at hu
      | cons c u =>
        obtain rfl : c = '*' := by simpa using hu
        rw [List.cons_append, readMark_slash_star] at h
        rw [List.cons_append, List.cons_append, readMark_slash_star, readMark_slash_star,
          readComment_exchange h.drop.le h.drop.nil]
  case h_18 =>
    have hlone : startsWith isNewline y = true → u ≠ ['\\'] := by
      rintro hnewline rfl
      rw [startsIdent_lone hnewline, if_neg (by simp)] at hbreak
      exact hbreak hnewline rfl
    have hident := startsIdent_append hy.stops hlone
    have hident' := startsIdent_append hy.stops' (u := u) fun hnewline => by
      simp [hy.unbroken] at hnewline
    rw [hident] at h hbreak ⊢
    rw [hident']
    split
    · next hi =>
      rw [if_pos hi] at h hbreak
      rw [readName_exchange hy h hbreak]
    · rfl
  all_goals first | rfl | rw [readMatch_append hy.stops, readMatch_append hy.stops']

theorem Halts.cons_pred {n : Nat} {c : Char} {u : List Char} (h : Halts (n - 1) u y y') :
    Halts n (c :: u) y y' := by
  have hle := h.le
  exact ⟨by rw [List.length_cons]; omega,
    fun hn => h.nil (by rw [List.length_cons] at hn; omega),
    fun hn => h.space (by rw [List.length_cons] at hn; omega)⟩

theorem unbroken_pred {n : Nat} {c : Char} {u : List Char} (h : Unbroken (n - 1 + 1) (c :: u) y)
    (hlone : startsWith isNewline y = true → c :: u ≠ ['\\']) : Unbroken n (c :: u) y := by
  cases n with
  | zero => exact hlone
  | succ n => exact h

theorem takeWhile_isSpace_exchange {u : List Char}
    (h : Halts ((u ++ y).takeWhile isSpace).length u y y') :
    (u ++ y').takeWhile isSpace = (u ++ y).takeWhile isSpace := by
  by_cases hinside : ∃ c ∈ u, isSpace c = false
  · rw [(span_append hinside y).1, (span_append hinside y').1]
  · have hall : ∀ c ∈ u, isSpace c = true := by simpa using hinside
    rw [(span_append_of_all hall y).1] at h
    rw [(span_append_of_all hall y).1, (span_append_of_all hall y').1]
    have hnone : y.takeWhile isSpace = [] := by
      have hle := h.le
      rw [List.length_append] at hle
      exact List.length_eq_zero_iff.1 (by omega)
    have hhead : ∀ {cs}, startsWith isSpace cs = false ↔ cs.takeWhile isSpace = [] := by
      intro cs
      cases cs with
      | nil => simp
      | cons c cs => cases hc : isSpace c <;> simp [hc]
    have hspace : startsWith isSpace y' = false := by
      refine eq_false_of_ne_true fun hspace => ?_
      have := h.space (by simp [hnone]) hspace
      rw [hhead.2 hnone] at this
      simp at this
    rw [hnone, hhead.1 hspace]

/-- Reading one token stops where it stopped when something else follows that cannot carry it on
either. A string whose line ends is not read so, for the end of its line has to follow, nor is a
function that might hold a quoted address, nor a backslash before a line break. -/
theorem readToken_exchange (hy : Exchange y y') {c : Char} {u : List Char}
    (h : Halts (readToken c (u ++ y)).2 u y y')
    (hbreak : Unbroken ((readToken c (u ++ y)).2 + 1) (c :: u) y)
    (hlone : startsWith isNewline y = true → c :: u ≠ ['\\'])
    (hgood : (readToken c (u ++ y)).2 = u.length → ∀ s, (readToken c (u ++ y)).1 ≠ .badString s)
    (hfun : ∀ s, (readToken c (u ++ y)).1 = .function s →
      (∃ d ∈ u.drop (readToken c (u ++ y)).2, isSpace d = false) ∨ SameHead y y') :
    readToken c (u ++ y') = readToken c (u ++ y) := by
  unfold readToken at h hbreak hgood hfun ⊢
  by_cases hspace : isSpace c = true
  · rw [if_pos hspace] at h
    rw [if_pos hspace, if_pos hspace]
    rw [takeWhile_isSpace_exchange h]
  rw [if_neg hspace] at h hbreak hgood hfun
  rw [if_neg hspace, if_neg hspace]
  by_cases hquote : (c == '"' || c == '\'') = true
  · rw [if_pos hquote] at h hgood
    rw [if_pos hquote, if_pos hquote]
    have hstring := readString_exchange hy h fun hfull => by
      refine eq_false_of_ne_true fun hbad => ?_
      exact hgood hfull (String.ofList (readString c (u ++ y)).1) (if_pos hbad)
    rw [hstring]
  rw [if_neg hquote] at h hbreak hgood hfun
  rw [if_neg hquote, if_neg hquote]
  have hnumber := startsNumber_append hy.stops (c :: u)
  have hnumber' := startsNumber_append hy.stops' (c :: u)
  rw [List.cons_append] at hnumber hnumber'
  rw [hnumber] at h hbreak hgood hfun
  rw [hnumber, hnumber']
  by_cases hn : startsNumber (c :: u) = true
  · rw [if_pos hn] at h hbreak
    rw [if_pos hn, if_pos hn]
    have hnumeric := readNumeric_exchange hy (u := c :: u) h.cons_pred (unbroken_pred hbreak hlone)
    rw [List.cons_append, List.cons_append] at hnumeric
    rw [hnumeric]
  rw [if_neg hn] at h hbreak hgood hfun
  rw [if_neg hn, if_neg hn]
  have hmarks : ∀ d ∈ ['-', '>'], isNameChar d = true ∨ d ∈ carriers := by
    simp [carriers, isNameChar_hyphen]
  have hclose : (u ++ y).take 2 = ['-', '>'] ↔ u.take 2 = ['-', '>'] :=
    take_append_eq_iff hy.stops hmarks
  have hclose' : (u ++ y').take 2 = ['-', '>'] ↔ u.take 2 = ['-', '>'] :=
    take_append_eq_iff hy.stops' hmarks
  simp only [hclose] at h hbreak hgood hfun
  simp only [hclose, hclose']
  by_cases hc : (c == '-' && decide (u.take 2 = ['-', '>'])) = true
  · rw [if_pos hc, if_pos hc]
  rw [if_neg hc] at h hbreak hgood hfun
  rw [if_neg hc, if_neg hc]
  have hident := startsIdent_append hy.stops hlone
  have hident' := startsIdent_append hy.stops' (u := c :: u) fun hnewline => by
    simp [hy.unbroken] at hnewline
  rw [List.cons_append] at hident hident'
  rw [hident] at h hbreak hgood hfun
  rw [hident, hident']
  by_cases hi : startsIdent (c :: u) = true
  · rw [if_pos hi] at h hbreak hfun
    rw [if_pos hi, if_pos hi]
    have hlike := readIdentLike_exchange hy (u := c :: u) h.cons_pred (unbroken_pred hbreak hlone) ?_
    · rw [List.cons_append, List.cons_append] at hlike
      rw [hlike]
    · intro s hs
      obtain ⟨d, hd, hspace⟩ | hsame := hfun s hs
      · refine .inl ⟨d, ?_, hspace⟩
        rw [List.cons_append]
        cases hn : (readIdentLike (c :: (u ++ y))).2 with
        | zero => exact List.mem_cons_of_mem c (List.mem_of_mem_drop hd)
        | succ n => simpa [hn] using hd
      · exact .inr hsame
  · rw [if_neg hi] at h hbreak
    rw [if_neg hi, if_neg hi]
    exact readMark_exchange hy h hbreak

/-- Only the end of a line cuts a string off. -/
theorem readString_cut {quote : Char} {cs : List Char}
    (h : (readString quote cs).2.2 = true) :
    startsWith isNewline (cs.drop (readString quote cs).2.1) = true := by
  fun_induction readString quote cs
  case case1 => simp at h
  case case2 => simp at h
  case case3 hnewline => exact hnewline
  case case4 => simp at h
  case case5 n _ ih =>
    have hrest := ih h
    rwa [List.drop_drop, ← List.drop_succ_cons, Nat.add_right_comm] at hrest
  case case6 ih =>
    have hrest := ih h
    rwa [List.drop_drop, ← List.drop_succ_cons, Nat.add_right_comm] at hrest
  case case7 ih =>
    have hrest := ih h
    rwa [← List.drop_succ_cons, Nat.add_comm] at hrest

theorem readNumeric_token (cs : List Char) :
    (∃ n, (readNumeric cs).1 = .number n) ∨ (∃ n, (readNumeric cs).1 = .percentage n) ∨
      ∃ n unit, (readNumeric cs).1 = .dimension n unit := by
  rw [readNumeric]
  dsimp only
  split
  · simp
  · split <;> simp

theorem readIdentLike_token (cs : List Char) :
    (∃ s, (readIdentLike cs).1 = .ident s) ∨ (∃ s, (readIdentLike cs).1 = .function s) ∨
      (∃ s, (readIdentLike cs).1 = .url s) ∨ ∃ s, (readIdentLike cs).1 = .badUrl s := by
  rw [readIdentLike]
  dsimp only
  split
  · split
    · rw [readUrl]
      dsimp only
      split
      · simp
      · simp
      · simp
      · split <;> simp
    · simp
  · simp

theorem readMatch_token (c : Char) (token : Token) (cs : List Char) :
    readMatch c token cs = (token, 1) ∨ readMatch c token cs = (.delim c, 0) := by
  unfold readMatch
  split <;> simp

theorem readHash_token (cs : List Char) :
    (∃ s, (readHash cs).1 = .idHash s) ∨ (∃ s, (readHash cs).1 = .hash s) ∨
      (readHash cs).1 = .delim '#' := by
  rw [readHash]
  split
  · simp
  · split <;> simp

/-- The character of a token that is always written with one and the same character. -/
def markChar : Token → Option Char
  | .opening .paren => some '('
  | .opening .square => some '['
  | .opening .curly => some '\x7b'
  | .closing .paren => some ')'
  | .closing .square => some ']'
  | .closing .curly => some '\x7d'
  | .comma => some ','
  | .colon => some ':'
  | .semicolon => some ';'
  | _ => none

theorem Token.eq_closing {token : Token} {b : Bracket} (h : token.closes = some b) :
    token = .closing b := by
  cases token <;> simp_all [Token.closes]

/-- Where the tokens that are no names, numbers or strings come from. -/
theorem readMark_token (c : Char) (cs : List Char) :
    (∀ s, (readMark c cs).1 ≠ .badString s) ∧ (∀ s, (readMark c cs).1 ≠ .whitespace s) ∧
      ((readMark c cs).1.isComment = true → c = '/') ∧
      ∀ d, markChar (readMark c cs).1 = some d → c = d ∧ (readMark c cs).2 = 0 := by
  have hmatch : ∀ c token, (∀ s, token ≠ Token.badString s) → (∀ s, token ≠ .whitespace s) →
      token.isComment = false → markChar token = none →
      (∀ s, (readMatch c token cs).1 ≠ .badString s) ∧
        (∀ s, (readMatch c token cs).1 ≠ .whitespace s) ∧
        ((readMatch c token cs).1.isComment = true → c = '/') ∧
        ∀ d, markChar (readMatch c token cs).1 = some d → c = d ∧ (readMatch c token cs).2 = 0 := by
    intro c token hstring hspace hcomment hmark
    rcases readMatch_token c token cs with h | h
    · simp_all
    · simp [h, Token.isComment, markChar]
  unfold readMark
  split
  case h_1 =>
    rcases readHash_token cs with ⟨s, h⟩ | ⟨s, h⟩ | h <;> simp [h, Token.isComment, markChar]
  case h_16 => split <;> simp [Token.isComment, markChar]
  case h_17 => split <;> simp [Token.isComment, markChar]
  case h_18 => split <;> simp [Token.isComment, markChar]
  case h_11 | h_12 | h_13 | h_14 | h_15 =>
    exact hmatch _ _ (by simp) (by simp) (by simp [Token.isComment]) (by simp [markChar])
  all_goals simp [Token.isComment, markChar]

/-- The reader that a token comes from. -/
theorem readToken_reader (c : Char) (cs : List Char) :
    (isSpace c = true ∧ ∃ s n, readToken c cs = (.whitespace s, n)) ∨
      isSpace c = false ∧
        ((∃ s, readToken c cs =
            (if (readString c cs).2.2 then .badString s else .quoted s, (readString c cs).2.1)) ∨
          (∃ n, readToken c cs = ((readNumeric (c :: cs)).1, n)) ∨
          readToken c cs = (.commentClose, 2) ∨
          (∃ n, readToken c cs = ((readIdentLike (c :: cs)).1, n)) ∨
          readToken c cs = readMark c cs) := by
  unfold readToken
  split
  · next hspace => exact .inl ⟨hspace, _, _, rfl⟩
  next hspace =>
  refine .inr ⟨by simpa using hspace, ?_⟩
  split
  · exact .inl ⟨_, rfl⟩
  split
  · exact .inr (.inl ⟨_, rfl⟩)
  split
  · exact .inr (.inr (.inl rfl))
  split
  · exact .inr (.inr (.inr (.inl ⟨_, rfl⟩)))
  · exact .inr (.inr (.inr (.inr rfl)))

/-- The first character tells what kind of token is read, and only the end of a line cuts a string
off. -/
theorem readToken_token (c : Char) (cs : List Char) :
    (readToken c cs).1.isWhitespace = isSpace c ∧
      ((readToken c cs).1.isComment = true → c = '/') ∧
      (∀ d, markChar (readToken c cs).1 = some d → c = d ∧ (readToken c cs).2 = 0) ∧
      ∀ s, (readToken c cs).1 = .badString s →
        startsWith isNewline (cs.drop (readToken c cs).2) = true := by
  rcases readToken_reader c cs with ⟨hspace, s, n, h⟩ | ⟨hspace, hreader⟩
  · simp [h, hspace, Token.isWhitespace, Token.isComment, markChar]
  rcases hreader with ⟨s, h⟩ | ⟨n, h⟩ | h | ⟨n, h⟩ | h
  · rw [h, hspace]
    cases hcut : (readString c cs).2.2 with
    | true => simp [Token.isWhitespace, Token.isComment, markChar, readString_cut hcut]
    | false => simp [Token.isWhitespace, Token.isComment, markChar]
  · rw [h, hspace]
    rcases readNumeric_token (c :: cs) with ⟨v, hv⟩ | ⟨v, hv⟩ | ⟨v, unit, hv⟩ <;>
      simp [hv, Token.isWhitespace, Token.isComment, markChar]
  · simp [h, hspace, Token.isWhitespace, Token.isComment, markChar]
  · rw [h, hspace]
    rcases readIdentLike_token (c :: cs) with ⟨v, hv⟩ | ⟨v, hv⟩ | ⟨v, hv⟩ | ⟨v, hv⟩ <;>
      simp [hv, Token.isWhitespace, Token.isComment, markChar]
  · rw [h, hspace]
    obtain ⟨hstring, hwhite, hcomment, hmark⟩ := readMark_token c cs
    refine ⟨?_, hcomment, hmark, fun s hs => absurd hs (hstring s)⟩
    cases htoken : (readMark c cs).1 with
    | whitespace s => exact absurd htoken (hwhite s)
    | _ => rfl

/-- The character begins a mark, whatever follows. A plus sign and a point may begin a number, and a
backslash a name. -/
def beginsMark (c : Char) : Bool :=
  !(isSpace c || c == '"' || c == '\'' || isNameChar c || c == '+' || c == '.' || c == '\\')

theorem readToken_of_beginsMark {c : Char} (h : beginsMark c = true) (cs : List Char) :
    readToken c cs = readMark c cs := by
  simp only [beginsMark, Bool.not_eq_true', Bool.or_eq_false_iff, beq_eq_false_iff_ne] at h
  obtain ⟨⟨⟨⟨⟨⟨hspace, hdouble⟩, hsingle⟩, hname⟩, hplus⟩, hpoint⟩, hback⟩ := h
  simp only [isNameChar, Bool.or_eq_false_iff, beq_eq_false_iff_ne] at hname
  obtain ⟨⟨hstart, hdigit⟩, hyphen⟩ := hname
  have hnumber : startsNumber (c :: cs) = false := by
    rw [startsNumber_of_ne hyphen hplus, startsDigits_of_ne hpoint, hdigit]
  have hident : startsIdent (c :: cs) = false := by
    rw [startsIdent_of_ne hyphen hback, hstart]
  rw [readToken, if_neg (by simp [hspace]), if_neg (by simp [hdouble, hsingle]),
    if_neg (by simp [hnumber]), if_neg (by simp [hyphen]), if_neg (by simp [hident])]

theorem readToken_slash (cs : List Char) : readToken '/' cs = readMark '/' cs :=
  readToken_of_beginsMark (by decide) cs

theorem readToken_lone (h : startsWith isNewline y = true) :
    readToken '\\' y = (.delim '\\', 0) := by
  have hident : startsIdent ('\\' :: y) = false := startsIdent_lone h
  have hnumber : startsNumber ('\\' :: y) = false := by
    rw [startsNumber_of_ne (by decide) (by decide), startsDigits_of_ne (by decide)]
    rfl
  rw [readToken, if_neg (by decide), if_neg (by decide), if_neg (by simp [hnumber]),
    if_neg (by simp), if_neg (by simp [hident])]
  rfl

end

/-! ## Lexemes -/

/-- The lexemes are read from their text when `y` follows it. -/
def Reads (ls : List Lexeme) (y : List Char) : Prop :=
  lexemes (ls.flatMap Lexeme.raw ++ y) = ls ++ lexemes y

section

variable {l : Lexeme} {ls ms : List Lexeme} {y y' : List Char}

theorem reads_nil (y : List Char) : Reads [] y := rfl

theorem reads_lexemes (cs : List Char) : Reads (lexemes cs) [] := by
  rw [Reads, lexemes_raw, List.append_nil, lexemes_nil, List.append_nil]

theorem Reads.raw_ne_nil (h : Reads [l] y) : l.raw ≠ [] := by
  intro hnil
  have hlength := congrArg List.length h
  simp [hnil] at hlength

theorem Reads.exists_readToken (h : Reads [l] y) :
    ∃ c u n, l.raw = c :: u ∧ readToken c (u ++ y) = (l.token, n) ∧ (u ++ y).take n = u := by
  obtain ⟨c, u, hraw⟩ := List.exists_cons_of_ne_nil h.raw_ne_nil
  rw [Reads, List.flatMap_singleton, hraw, List.cons_append, lexemes_cons] at h
  obtain ⟨hl, -⟩ := List.cons.inj h
  have htoken := congrArg Lexeme.token hl
  have htake := congrArg Lexeme.raw hl
  rw [hraw] at htake
  exact ⟨c, u, _, hraw, Prod.ext htoken rfl, (List.cons.inj htake).2⟩

theorem Reads.readToken (h : Reads [l] y) (hy : y ≠ []) :
    ∃ c u, l.raw = c :: u ∧ readToken c (u ++ y) = (l.token, u.length) := by
  obtain ⟨c, u, n, hraw, hread, htake⟩ := h.exists_readToken
  have hlength := congrArg List.length htake
  have hpos := List.length_pos_iff.2 hy
  rw [List.length_take, List.length_append] at hlength
  refine ⟨c, u, hraw, ?_⟩
  rw [hread, show n = u.length by omega]

theorem Reads.isWhitespace_eq (h : Reads [l] y) {c : Char} {u : List Char} (hraw : l.raw = c :: u) :
    l.token.isWhitespace = isSpace c := by
  obtain ⟨d, v, n, hraw', hread, -⟩ := h.exists_readToken
  obtain rfl : d = c := (List.cons.inj (hraw'.symm.trans hraw)).1
  have htoken := (readToken_token d (v ++ y)).1
  rwa [hread] at htoken

theorem Reads.slash_of_isComment (h : Reads [l] y) (hl : l.token.isComment = true) :
    ∃ u, l.raw = '/' :: u := by
  obtain ⟨c, u, n, hraw, hread, -⟩ := h.exists_readToken
  have htoken := (readToken_token c (u ++ y)).2.1
  rw [hread] at htoken
  exact ⟨u, htoken hl ▸ hraw⟩

theorem Reads.raw_of_mark (h : Reads [l] y) {d : Char} (hd : markChar l.token = some d) :
    l.raw = [d] := by
  obtain ⟨c, u, n, hraw, hread, htake⟩ := h.exists_readToken
  obtain ⟨hc, hn⟩ := (readToken_token c (u ++ y)).2.2.1 d (by rw [hread]; exact hd)
  rw [hread] at hn
  obtain rfl : n = 0 := hn
  rw [hraw, hc, ← htake]
  rfl

theorem reads_of_readToken {c : Char} {u : List Char} (hraw : l.raw = c :: u)
    (h : Css.readToken c (u ++ y) = (l.token, u.length)) : Reads [l] y := by
  rw [Reads, List.flatMap_singleton, hraw, List.cons_append, lexemes_cons, h]
  rcases l with ⟨token, raw⟩
  obtain rfl : raw = c :: u := hraw
  simp

/-- A mark is read whatever follows. -/
theorem reads_mark {token : Token} {d : Char} (h : markChar token = some d) (y : List Char) :
    Reads [⟨token, [d]⟩] y := by
  refine reads_of_readToken (u := []) rfl ?_
  cases token with
  | opening b => cases b <;> cases h <;> rfl
  | closing b => cases b <;> cases h <;> rfl
  | comma => cases h; rfl
  | colon => cases h; rfl
  | semicolon => cases h; rfl
  | _ => cases h

/-- What is left after a lexeme is read on its own. -/
theorem eq_lexemes_of_cons {cs : List Char} (h : lexemes (l.raw ++ cs) = l :: ms) :
    ms = lexemes cs := by
  have hraw := congrArg (List.flatMap Lexeme.raw) h
  rw [lexemes_raw, List.flatMap_cons] at hraw
  cases hcs : l.raw ++ cs with
  | nil => simp [hcs] at h
  | cons c rest =>
    rw [hcs, lexemes_cons] at h
    obtain ⟨-, hms⟩ := List.cons.inj h
    rw [← hms] at hraw ⊢
    rw [lexemes_raw] at hraw
    rw [List.append_cancel_left hraw]

theorem reads_cons_iff :
    Reads (l :: ls) y ↔ Reads [l] (ls.flatMap Lexeme.raw ++ y) ∧ Reads ls y := by
  simp only [Reads, List.flatMap_cons, List.flatMap_nil, List.append_nil, List.append_assoc,
    List.cons_append, List.nil_append]
  constructor
  · intro h
    have hrest := eq_lexemes_of_cons h
    exact ⟨by rw [h, hrest], hrest.symm⟩
  · rintro ⟨h, hrest⟩
    rw [h, hrest]

theorem reads_append_iff :
    Reads (ls ++ ms) y ↔ Reads ls (ms.flatMap Lexeme.raw ++ y) ∧ Reads ms y := by
  induction ls with
  | nil => simp [reads_nil]
  | cons l ls ih =>
    rw [List.cons_append, @reads_cons_iff l (ls ++ ms), ih, @reads_cons_iff l ls,
      List.flatMap_append, List.append_assoc, and_assoc]

theorem Reads.raw_ne_nil_of_mem (h : Reads ls y) (hl : l ∈ ls) : l.raw ≠ [] := by
  obtain ⟨before, after, rfl⟩ := List.append_of_mem hl
  obtain ⟨-, hrest⟩ := reads_append_iff.1 h
  exact (reads_cons_iff.1 hrest).1.raw_ne_nil

/-- A comment that something follows is read up to the mark that closes it. -/
theorem Reads.exists_closed_comment (h : Reads [l] y) (hl : l.token.isComment = true)
    (hy : y ≠ []) :
    ∃ u, l.raw = '/' :: '*' :: u ∧ l.token = .comment (String.ofList (readComment (u ++ y)).1) ∧
      (readComment (u ++ y)).2 = u.length := by
  obtain ⟨c, u, hraw, hread⟩ := h.readToken hy
  obtain rfl : c = '/' := (readToken_token c (u ++ y)).2.1 (by rw [hread]; exact hl)
  rw [readToken_slash] at hread
  cases hstar : startsWith (· == '*') (u ++ y) with
  | false =>
    rw [readMark_slash hstar] at hread
    have htoken : Token.delim '/' = l.token := congrArg Prod.fst hread
    rw [← htoken] at hl
    exact absurd hl Bool.false_ne_true
  | true =>
    cases u with
    | nil =>
      obtain ⟨d, rest, rfl⟩ := List.exists_cons_of_ne_nil hy
      obtain rfl : d = '*' := by simpa using hstar
      have hlength := congrArg Prod.snd hread
      rw [List.nil_append, readMark_slash_star] at hlength
      simp at hlength
    | cons d u =>
      obtain rfl : d = '*' := by simpa using hstar
      rw [List.cons_append, readMark_slash_star] at hread
      have hlength := congrArg Prod.snd hread
      simp only [List.length_cons] at hlength
      exact ⟨u, hraw, (congrArg Prod.fst hread).symm, by omega⟩

/-- A comment that something follows is closed, so anything may follow it. -/
theorem Reads.of_closed_comment (h : Reads [l] y) (hl : l.token.isComment = true) (hy : y ≠ [])
    (z : List Char) : Reads [l] z := by
  obtain ⟨u, hraw, htoken, hlength⟩ := h.exists_closed_comment hl hy
  have hbody : readComment (u ++ z) = readComment (u ++ y) :=
    readComment_exchange (by omega) fun _ hnil => absurd hnil hy
  refine reads_of_readToken hraw ?_
  rw [readToken_slash, List.cons_append, readMark_slash_star, hbody, ← htoken, hlength,
    List.length_cons, Nat.add_comm]

/-- The last character of a closed comment is the slash of its mark. -/
theorem Reads.getLast?_of_closed_comment (h : Reads [l] y) (hl : l.token.isComment = true)
    (hy : y ≠ []) : l.raw.getLast? = some '/' := by
  obtain ⟨u, hraw, -, hlength⟩ := h.exists_closed_comment hl hy
  rw [hraw, List.getLast?_cons_cons, List.getLast?_cons,
    getLast?_of_readComment hy hlength, Option.getD_some]

/-- White space is a run of spaces. -/
theorem Reads.isSpace_of_isWhitespace (h : Reads [l] y) (hl : l.token.isWhitespace = true) :
    ∀ c ∈ l.raw, isSpace c = true := by
  obtain ⟨c, u, n, hraw, hread, htake⟩ := h.exists_readToken
  have hc : isSpace c = true := (h.isWhitespace_eq hraw).symm.trans hl
  rw [Css.readToken, if_pos hc] at hread
  have hlength : ((u ++ y).takeWhile isSpace).length = n := congrArg Prod.snd hread
  have hrun : (u ++ y).takeWhile isSpace = u :=
    (List.prefix_iff_eq_take.1 (List.takeWhile_prefix _)).trans (by rw [hlength, htake])
  rw [hraw]
  refine List.forall_mem_cons.2 ⟨hc, ?_⟩
  rw [← hrun]
  exact List.all_eq_true.1 List.all_takeWhile

/-- A lexeme that stops before `y` stops before `y'` too. -/
structure Ends (l : Lexeme) (y y' : List Char) : Prop where
  nil : y = [] → y' = []
  space : startsWith isSpace y' = true → startsWith isSpace y = true
  /-- A backslash and a line break after it are no escape, unlike a backslash and a space. -/
  backslash : startsWith isNewline y = true → l.token ≠ .delim '\\'
  /-- The end of its line has to follow a string that is cut off. -/
  string : startsWith isNewline y = true → ∀ s, l.token ≠ .badString s
  /-- The name `url` and a bracket begin a function only if a quote follows. -/
  function : (∀ s, l.token ≠ .function s) ∨ SameHead y y'

theorem Reads.exchange_singleton (hy : Exchange y y') (h : Reads [l] y) (hends : Ends l y y') :
    Reads [l] y' := by
  by_cases hnil : y = []
  · rwa [hends.nil hnil, ← hnil]
  obtain ⟨c, u, hraw, hread⟩ := h.readToken hnil
  refine reads_of_readToken hraw ?_
  rw [← hread]
  have hlone : startsWith isNewline y = true → c :: u ≠ ['\\'] := by
    intro hnewline heq
    obtain ⟨rfl, rfl⟩ := List.cons.inj heq
    rw [List.nil_append, readToken_lone hnewline] at hread
    exact hends.backslash hnewline (congrArg Prod.fst hread).symm
  refine readToken_exchange hy ?_ ?_ hlone ?_ ?_ <;> rw [hread]
  · exact ⟨Nat.le_refl _, fun _ => hends.nil, fun _ => hends.space⟩
  · intro hnewline
    simp
  · intro _ s hs
    have hnewline := (readToken_token c (u ++ y)).2.2.2 s (by rw [hread, hs])
    rw [hread, List.drop_left] at hnewline
    exact hends.string hnewline s hs
  · intro s hs
    exact .inr (hends.function.resolve_left fun hnone => hnone s hs)

/-- Lexemes are read again when something else follows, if the last of them is. -/
theorem Reads.exchange (hy : Exchange y y') (h : Reads ls y)
    (hlast : ∀ l ∈ ls.getLast?, Reads [l] y')
    (hback : startsWith isNewline y = true → ∀ l ∈ ls.getLast?, l.token ≠ .delim '\\')
    (hsolid : SameHead y y' ∨ ∀ l ∈ ls.getLast?, ∃ c ∈ l.raw, isSpace c = false) :
    Reads ls y' := by
  induction ls with
  | nil => exact reads_nil y'
  | cons l ls ih =>
    cases ls with
    | nil => exact hlast l rfl
    | cons m ls =>
      obtain ⟨hl, hrest⟩ := reads_cons_iff.1 h
      refine reads_cons_iff.2 ⟨?_, ih hrest hlast hback hsolid⟩
      have hm := hrest.raw_ne_nil_of_mem List.mem_cons_self
      generalize hw : (m :: ls).flatMap Lexeme.raw = w at hl ⊢
      have hwpos : 0 < w.length := by
        rw [← hw, List.flatMap_cons, List.length_append]
        exact Nat.lt_of_lt_of_le (List.length_pos_iff.2 hm) (Nat.le_add_right _ _)
      have hne := List.length_pos_iff.1 hwpos
      obtain ⟨c, u, hraw, hread⟩ := hl.readToken (by simp [hne])
      refine reads_of_readToken hraw ?_
      rw [← List.append_assoc] at hread ⊢
      rw [← hread]
      refine readToken_exchange hy ?_ ?_ ?_ ?_ ?_
      all_goals try rw [hread]
      · have hlt : u.length < (u ++ w).length := by
          rw [List.length_append]
          omega
        exact ⟨Nat.le_of_lt hlt, fun heq => absurd heq (Nat.ne_of_lt hlt),
          fun heq => absurd heq (Nat.ne_of_lt hlt)⟩
      · intro hnewline hlone
        rw [List.drop_succ_cons, List.drop_left] at hlone
        obtain ⟨d, v, hmraw⟩ := List.exists_cons_of_ne_nil hm
        obtain ⟨rfl, hnil⟩ : d = '\\' ∧ v ++ ls.flatMap Lexeme.raw = [] := by
          rw [List.flatMap_cons, hmraw, hlone] at hw
          exact List.cons.inj hw
        obtain ⟨rfl, hraws⟩ := List.append_eq_nil_iff.1 hnil
        obtain rfl : ls = [] := by
          refine List.eq_nil_iff_forall_not_mem.2 fun k hk => ?_
          refine hrest.raw_ne_nil_of_mem (List.mem_cons_of_mem m hk) ?_
          exact List.flatMap_eq_nil_iff.1 hraws k hk
        obtain ⟨e, v, hmraw', hmread⟩ := hrest.readToken (by rintro rfl; simp at hnewline)
        obtain ⟨rfl, rfl⟩ : e = '\\' ∧ v = [] := List.cons.inj (hmraw'.symm.trans hmraw)
        rw [List.nil_append, readToken_lone hnewline] at hmread
        exact hback hnewline m rfl (congrArg Prod.fst hmread).symm
      · intro _ heq
        have := congrArg List.length heq
        simp only [List.length_cons, List.length_append, List.length_nil] at this
        omega
      · intro heq
        rw [List.length_append] at heq
        omega
      · intro s _
        rw [List.drop_left]
        refine hsolid.symm.imp_left fun hsolid => ?_
        have hlastm := List.getLast?_eq_some_getLast (List.cons_ne_nil m ls)
        obtain ⟨d, hd, hspace⟩ := hsolid _ hlastm
        exact ⟨d, hw ▸ List.mem_flatMap.2 ⟨_, List.getLast_mem _, hd⟩, hspace⟩

end

end StyleSieve.Css
