import StyleSieve.Css.Lexer

/-!
# What follows a name, a number or a string

The readers of the tokenizer look at what follows what they read, but only to see whether it goes
on. For every reader it is said that what follows may be exchanged for any other text that cannot be
read on into, which is one that begins with white space or with a barrier, or no text at all.
-/

namespace StyleSieve.Css

/-! ## Barriers -/

/-- Marks that carry on a number, a name or another mark before them. -/
def carriers : List Char := ['\\', '(', '.', '%', '+', '*', '=', '>', '!']

theorem isNameChar_hyphen : isNameChar '-' = true := by decide

/-- A character that carries on no token: it neither belongs to names nor is a carrier. -/
def isBarrier (c : Char) : Bool := !isNameChar c && !isSpace c && !carriers.contains c

/-- No token goes on into the text. -/
def Stops (cs : List Char) : Prop := ∀ c ∈ cs.head?, isBarrier c = true ∨ isSpace c = true

theorem stops_nil : Stops [] := by simp [Stops]

theorem stops_cons {c : Char} {cs : List Char} :
    Stops (c :: cs) ↔ isBarrier c = true ∨ isSpace c = true := by simp [Stops]

theorem not_isNameChar_of_isSpace {c : Char} (h : isSpace c = true) : isNameChar c = false := by
  simp only [isSpace, isNewline, Bool.or_eq_true, beq_iff_eq] at h
  rcases h with (rfl | rfl) | (rfl | rfl) | rfl <;> decide

theorem not_mem_carriers_of_isSpace {c : Char} (h : isSpace c = true) : c ∉ carriers := by
  simp only [isSpace, isNewline, Bool.or_eq_true, beq_iff_eq] at h
  rcases h with (rfl | rfl) | (rfl | rfl) | rfl <;> decide

theorem isNameChar_of_isDigit {c : Char} (h : c.isDigit = true) : isNameChar c = true := by
  simp [isNameChar, h]

theorem not_isNameStart_of_isDigit {c : Char} (h : c.isDigit = true) : isNameStart c = false := by
  have hhi : c.toNat ≤ 0x39 := of_decide_eq_true (Bool.and_eq_true_iff.1 h).2
  have hascii : ∀ n < 0x40, (Char.ofNat n).isDigit = true → isNameStart (Char.ofNat n) = false := by
    decide
  have hc := hascii c.toNat (by omega)
  rw [Char.ofNat_toNat] at hc
  exact hc h

theorem isNameChar_of_isHexDigit {c : Char} (h : Text.isHexDigit c = true) :
    isNameChar c = true := by
  simp only [Text.isHexDigit, Bool.or_eq_true, Bool.and_eq_true, decide_eq_true_eq] at h
  have hstart : c.isAlpha = true → isNameChar c = true := fun halpha => by
    simp [isNameChar, isNameStart, halpha]
  rcases h with (h | h) | h
  · exact isNameChar_of_isDigit h
  · have hlower : c.isLower = true :=
      Bool.and_eq_true_iff.mpr
        ⟨decide_eq_true h.1, decide_eq_true (Char.le_trans (b := 'f') h.2 (by decide))⟩
    exact hstart (Bool.or_eq_true_iff.mpr (.inr hlower))
  · have hupper : c.isUpper = true :=
      decide_eq_true ⟨h.1, Char.le_trans (b := 'F') h.2 (by decide)⟩
    exact hstart (Bool.or_eq_true_iff.mpr (.inl hupper))

namespace Stops

variable {c : Char} {cs : List Char}

theorem not_isNameChar (h : Stops (c :: cs)) : isNameChar c = false := by
  rcases stops_cons.1 h with h | h
  · simp only [isBarrier, Bool.and_eq_true, Bool.not_eq_true'] at h
    exact h.1.1
  · exact not_isNameChar_of_isSpace h

theorem not_mem_carriers (h : Stops (c :: cs)) : c ∉ carriers := by
  rcases stops_cons.1 h with h | h
  · simp only [isBarrier, Bool.and_eq_true, Bool.not_eq_true'] at h
    simpa using h.2
  · exact not_mem_carriers_of_isSpace h

/-- The text does not begin with a character of a class that holds neither barriers nor spaces. -/
theorem startsWith_eq_false (h : Stops cs) {p : Char → Bool}
    (hp : ∀ c, p c = true → isNameChar c = true ∨ c ∈ carriers) : startsWith p cs = false := by
  cases cs with
  | nil => rfl
  | cons c cs =>
    rw [startsWith_cons]
    refine eq_false_of_ne_true fun hc => ?_
    rcases hp c hc with hname | hcarrier
    · simp [h.not_isNameChar] at hname
    · exact h.not_mem_carriers hcarrier

theorem head_ne (h : Stops cs) {c : Char} (hc : isNameChar c = true ∨ c ∈ carriers)
    (rest : List Char) : cs ≠ c :: rest := by
  rintro rfl
  rcases hc with hname | hcarrier
  · simp [h.not_isNameChar] at hname
  · exact h.not_mem_carriers hcarrier

end Stops

/-- Two texts that may follow, neither of which carries a token on. The second is no line break. -/
structure Exchange (y y' : List Char) : Prop where
  stops : Stops y
  stops' : Stops y'
  unbroken : startsWith isNewline y' = false

/-- Reading has stopped after `n` characters of `u`, which `y` follows, for a reason that `y'` gives
too. -/
structure Halts (n : Nat) (u y y' : List Char) : Prop where
  le : n ≤ u.length
  nil : n = u.length → y = [] → y' = []
  space : n = u.length → startsWith isSpace y' = true → startsWith isSpace y = true

theorem Halts.drop {k m : Nat} {u y y' : List Char} (h : Halts (k + m) u y y') :
    Halts m (u.drop k) y y' where
  le := by have := h.le; simp; omega
  nil hm := h.nil (by have := h.le; simp at hm; omega)
  space hm := h.space (by have := h.le; simp at hm; omega)

theorem Halts.of_le {m n : Nat} {u y y' : List Char} (h : Halts n u y y') (hmn : m ≤ n) :
    Halts m u y y' where
  le := Nat.le_trans hmn h.le
  nil hm := h.nil (by have := h.le; omega)
  space hm := h.space (by have := h.le; omega)

/-- The first part of what is read, after the character that it begins with. -/
theorem Halts.first {k m : Nat} {c : Char} {u y y' : List Char}
    (h : Halts (k + 1 + m) (c :: u) y y') : Halts k u y y' := by
  have hle := h.le
  rw [List.length_cons] at hle
  exact ⟨by omega, fun hk => h.nil (by rw [List.length_cons]; omega),
    fun hk => h.space (by rw [List.length_cons]; omega)⟩

/-! ## Escapes and names -/

section

variable {y y' : List Char}

theorem takeWhile_append_of_stops (h : Stops y) {p : Char → Bool}
    (hp : ∀ c, p c = true → isNameChar c = true ∨ c ∈ carriers) (u : List Char) :
    (u ++ y).takeWhile p = u.takeWhile p := by
  have hy := h.startsWith_eq_false hp
  induction u with
  | nil => cases y <;> simp_all
  | cons c u ih => simp [List.takeWhile_cons, ih]

theorem takeWhile_take_append_of_stops (h : Stops y) {p : Char → Bool}
    (hp : ∀ c, p c = true → isNameChar c = true ∨ c ∈ carriers) (n : Nat) (u : List Char) :
    ((u ++ y).take n).takeWhile p = (u.take n).takeWhile p := by
  have hy := h.startsWith_eq_false hp
  induction u generalizing n with
  | nil => cases y <;> cases n <;> simp_all
  | cons c u ih => cases n <;> simp [List.takeWhile_cons, ih]

theorem newlineLength_cons (c : Char) (cs : List Char) :
    newlineLength (c :: cs) =
      if c = '\r' ∧ startsWith (· == '\n') cs = true then 2 else if isNewline c then 1 else 0 := by
  by_cases hfeed : c = '\r' ∧ startsWith (· == '\n') cs = true
  · obtain ⟨rfl, hcs⟩ := hfeed
    cases cs with
    | nil => simp at hcs
    | cons d cs =>
      obtain rfl : d = '\n' := by simpa using hcs
      rfl
  · rw [if_neg hfeed, newlineLength]
    rintro tail rfl rfl
    simp at hfeed

theorem newlineLength_exchange (hy : Exchange y y') {c : Char} {u : List Char}
    (h : newlineLength (c :: u ++ y) ≤ (c :: u).length) :
    newlineLength (c :: u ++ y') = newlineLength (c :: u ++ y) := by
  cases u with
  | nil =>
    have hy' : startsWith (· == '\n') y' = false := by
      have hbreak := hy.unbroken
      cases y' <;> simp_all [isNewline]
    rw [List.cons_append, newlineLength_cons] at h
    rw [List.cons_append, List.cons_append, newlineLength_cons, newlineLength_cons]
    simp only [List.nil_append, hy', Bool.false_eq_true, and_false, if_false] at h ⊢
    by_cases hfeed : c = '\r' ∧ startsWith (· == '\n') y = true
    · simp [hfeed] at h
    · rw [if_neg hfeed]
  | cons d u => simp [newlineLength_cons]

theorem newlineLength_pos {c : Char} (h : isNewline c = true) (cs : List Char) :
    0 < newlineLength (c :: cs) := by
  rw [newlineLength_cons, if_pos h]
  split <;> omega

theorem newlineLength_pos_of_startsWith {cs : List Char} (h : startsWith isNewline cs = true) :
    0 < newlineLength cs := by
  cases cs with
  | nil => simp at h
  | cons c cs => exact newlineLength_pos h cs

theorem spaceLength_cons (c : Char) (cs : List Char) :
    spaceLength (c :: cs) =
      if isNewline c then newlineLength (c :: cs) else if isSpace c then 1 else 0 := rfl

theorem spaceLength_eq_zero_iff {cs : List Char} :
    spaceLength cs = 0 ↔ startsWith isSpace cs = false := by
  cases cs with
  | nil => simp [spaceLength]
  | cons c cs =>
    by_cases hbreak : isNewline c = true
    · have hpos := newlineLength_pos hbreak cs
      simp [spaceLength, hbreak, isSpace]
      omega
    · by_cases hspace : isSpace c = true <;> simp [spaceLength, hbreak, hspace]

theorem spaceLength_exchange (hy : Exchange y y') {u : List Char}
    (h : Halts (spaceLength (u ++ y)) u y y') : spaceLength (u ++ y') = spaceLength (u ++ y) := by
  cases u with
  | nil =>
    have hzero : spaceLength y = 0 := by simpa using h.le
    have hspace := spaceLength_eq_zero_iff.1 hzero
    have hspace' : startsWith isSpace y' = false := by
      refine eq_false_of_ne_true fun htrue => ?_
      simp [h.space (by simpa using hzero) htrue] at hspace
    rw [List.nil_append, List.nil_append, hzero, spaceLength_eq_zero_iff.2 hspace']
  | cons c u =>
    have hle := h.le
    rw [List.cons_append, spaceLength_cons] at hle
    rw [List.cons_append, List.cons_append, spaceLength_cons, spaceLength_cons]
    split
    · next hbreak =>
      rw [if_pos hbreak] at hle
      exact newlineLength_exchange hy hle
    · rfl

theorem readEscape_pos {cs : List Char} (h : cs ≠ []) : 0 < (readEscape cs).2 := by
  cases cs with
  | nil => exact absurd rfl h
  | cons c cs =>
    rw [readEscape]
    split
    · simp
    · next hdigits =>
      have hlength := List.length_pos_iff.2 (mt List.isEmpty_iff.2 hdigits)
      exact Nat.lt_of_lt_of_le hlength (Nat.le_add_right _ _)

theorem readEscape_exchange (hy : Exchange y y') {u : List Char}
    (h : Halts (readEscape (u ++ y)).2 u y y') : readEscape (u ++ y') = readEscape (u ++ y) := by
  cases u with
  | nil =>
    cases y with
    | nil => simp [h.nil rfl rfl]
    | cons c y =>
      have hpos := readEscape_pos (List.cons_ne_nil c y)
      have hle := h.le
      simp only [List.nil_append, List.length_nil] at hle
      omega
  | cons c u =>
    have hhex : ∀ c, Text.isHexDigit c = true → isNameChar c = true ∨ c ∈ carriers :=
      fun c hc => .inl (isNameChar_of_isHexDigit hc)
    have hdigits := takeWhile_take_append_of_stops hy.stops hhex 6 (c :: u)
    have hdigits' := takeWhile_take_append_of_stops hy.stops' hhex 6 (c :: u)
    have hlength : (((c :: u).take 6).takeWhile Text.isHexDigit).length ≤ (c :: u).length :=
      Nat.le_trans (List.takeWhile_prefix _).length_le (List.length_take_le' ..)
    have hdrop := fun y => @List.drop_append_of_le_length Char _ y _ hlength
    simp only [List.cons_append] at h hdigits hdigits' hdrop ⊢
    rw [readEscape] at h
    rw [readEscape, readEscape]
    simp only [hdigits, hdigits', hdrop] at h ⊢
    split
    · rfl
    · next hsome =>
      simp only [hsome] at h
      rw [spaceLength_exchange hy h.drop]

theorem readNameChar_backslash (cs : List Char) :
    readNameChar '\\' cs = if startsWith isNewline cs then none else some (readEscape cs) := by
  simp [readNameChar]

theorem readName_of_stops (h : Stops y) : readName y = ([], 0) := by
  cases y with
  | nil => rw [readName]
  | cons c y =>
    have hback : (c == '\\') = false := by
      simpa using fun hc : c = '\\' => h.not_mem_carriers (by simp [hc, carriers])
    rw [readName]
    simp [readNameChar, hback, h.not_isNameChar]

/-- A backslash before a line break is no escape, and `y'` does not begin with a line break. -/
def Unbroken (n : Nat) (u y : List Char) : Prop :=
  startsWith isNewline y = true → u.drop n ≠ ['\\']

theorem readNameChar_exchange (hy : Exchange y y') {c : Char} {u : List Char}
    (h : ∀ value k, readNameChar c (u ++ y) = some (value, k) → Halts k u y y')
    (hbreak : readNameChar c (u ++ y) = none → Unbroken 0 (c :: u) y) :
    readNameChar c (u ++ y') = readNameChar c (u ++ y) := by
  by_cases hc : c = '\\'
  · subst hc
    have hstarts : startsWith isNewline (u ++ y') = startsWith isNewline (u ++ y) := by
      cases u with
      | cons d u => rfl
      | nil =>
        rw [List.nil_append, List.nil_append, hy.unbroken]
        refine (eq_false_of_ne_true fun hnewline => ?_).symm
        exact hbreak (by simp [readNameChar_backslash, hnewline]) hnewline rfl
    rw [readNameChar_backslash] at h
    rw [readNameChar_backslash, readNameChar_backslash, hstarts]
    split
    · rfl
    · next hnewline => rw [readEscape_exchange hy (h _ _ (by rw [if_neg hnewline]))]
  · simp [readNameChar, hc]

theorem readName_exchange (hy : Exchange y y') {u : List Char}
    (h : Halts (readName (u ++ y)).2 u y y') (hbreak : Unbroken (readName (u ++ y)).2 u y) :
    readName (u ++ y') = readName (u ++ y) := by
  induction hn : u.length using Nat.strongRecOn generalizing u with
  | ind n ih =>
    cases u with
    | nil =>
      rw [List.nil_append, List.nil_append, readName_of_stops hy.stops, readName_of_stops hy.stops']
    | cons c u =>
      rw [List.cons_append, readName] at h hbreak
      rw [List.cons_append, List.cons_append, readName, readName]
      cases hvalue : readNameChar c (u ++ y) with
      | none =>
        simp only [hvalue] at h hbreak
        rw [readNameChar_exchange hy (by simp [hvalue]) (fun _ => hbreak), hvalue]
      | some value =>
        obtain ⟨value, k⟩ := value
        simp only [hvalue] at h hbreak
        have hle := h.le
        simp only [List.length_cons] at hle
        have hdrop := fun y => @List.drop_append_of_le_length Char _ y _ (show k ≤ u.length by omega)
        rw [hdrop] at h hbreak hle
        have hrest : Halts (readName (u.drop k ++ y)).2 (u.drop k) y y' := h.drop (k := k + 1)
        have hrestbreak : Unbroken (readName (u.drop k ++ y)).2 (u.drop k) y := by
          intro hnewline
          have := hbreak hnewline
          rwa [Nat.add_right_comm, List.drop_succ_cons, ← List.drop_drop] at this
        rw [readNameChar_exchange hy (by simpa [hvalue] using h.first) (by simp [hvalue]), hvalue]
        have hlength : (u.drop k).length < n := by
          rw [← hn, List.length_drop, List.length_cons]
          omega
        simp only [hdrop, ih _ hlength hrest hrestbreak rfl]

/-! ## Strings, comments and addresses -/

/-- What a backslash in a string stands for, and how many characters behind it are taken with it: a
line break is left out, and anything else is an escape. -/
def readBackslash (cs : List Char) : List Char × Nat :=
  if startsWith isNewline cs then ([], newlineLength cs)
  else ([(readEscape cs).1], (readEscape cs).2)

theorem readBackslash_pos {cs : List Char} (h : cs ≠ []) : 0 < (readBackslash cs).2 := by
  rw [readBackslash]
  split
  · next hbreak => exact newlineLength_pos_of_startsWith hbreak
  · exact readEscape_pos h

theorem readBackslash_exchange (hy : Exchange y y') {u : List Char} (hu : u ≠ [])
    (h : Halts (readBackslash (u ++ y)).2 u y y') :
    readBackslash (u ++ y') = readBackslash (u ++ y) := by
  obtain ⟨c, u, rfl⟩ := List.exists_cons_of_ne_nil hu
  have hstarts : ∀ cs, startsWith isNewline (c :: u ++ cs) = isNewline c := fun _ => rfl
  simp only [readBackslash, hstarts] at h ⊢
  split
  · next hbreak =>
    rw [if_pos hbreak] at h
    rw [newlineLength_exchange hy h.le]
  · next hbreak =>
    rw [if_neg hbreak] at h
    rw [readEscape_exchange hy h]

theorem readString_pos {quote : Char} {cs : List Char} (hcs : cs ≠ [])
    (hgood : (readString quote cs).2.2 = false) : 0 < (readString quote cs).2.1 := by
  cases cs with
  | nil => exact absurd rfl hcs
  | cons c cs =>
    rw [readString] at hgood ⊢
    split
    · simp
    · split
      · next hquote hnewline => simp [hquote, hnewline] at hgood
      · split
        · split
          · simp
          · split
            · dsimp only; omega
            · dsimp only; omega
        · dsimp only; omega

section

variable {quote c : Char} {cs : List Char} (hquote : (c == quote) = false)
  (hnewline : isNewline c = false)

include hquote hnewline

theorem readString_plain (hback : (c == '\\') = false) :
    readString quote (c :: cs) =
      let rest := readString quote cs
      (shownChar c :: rest.1, 1 + rest.2.1, rest.2.2) := by
  rw [readString]
  simp [hquote, hnewline, hback]

theorem readString_backslash (hback : (c == '\\') = true) (hne : cs ≠ []) :
    readString quote (c :: cs) =
      let rest := readString quote (cs.drop (readBackslash cs).2)
      ((readBackslash cs).1 ++ rest.1, (readBackslash cs).2 + 1 + rest.2.1, rest.2.2) := by
  rw [readString, readBackslash]
  cases startsWith isNewline cs <;> simp [hquote, hnewline, hback, hne]

end

/-- A string that has been closed, or that the text ends. -/
theorem readString_exchange (hy : Exchange y y') {quote : Char} {u : List Char}
    (h : Halts (readString quote (u ++ y)).2.1 u y y')
    (hgood : (readString quote (u ++ y)).2.1 = u.length →
      (readString quote (u ++ y)).2.2 = false) :
    readString quote (u ++ y') = readString quote (u ++ y) := by
  induction hn : u.length using Nat.strongRecOn generalizing u with
  | ind n ih =>
    cases u with
    | nil =>
      by_cases hnil : y = []
      · subst hnil
        simp [h.nil (by simp [readString]) rfl]
      · have hzero : (readString quote y).2.1 = 0 := by simpa using h.le
        have hpos := readString_pos hnil (hgood (by simpa using hzero))
        omega
    | cons c u =>
      -- the rest after one unit of the string is covered by the induction
      have hrest : ∀ k, k ≤ u.length →
          Halts (k + 1 + (readString quote (u.drop k ++ y)).2.1) (c :: u) y y' →
          (k + 1 + (readString quote (u.drop k ++ y)).2.1 = (c :: u).length →
            (readString quote (u.drop k ++ y)).2.2 = false) →
          readString quote (u.drop k ++ y') = readString quote (u.drop k ++ y) := by
        intro k hk hhalts hgood
        refine ih _ ?_ (hhalts.drop (k := k + 1)) (fun hfull => hgood ?_) rfl
        · rw [← hn, List.length_drop, List.length_cons]
          omega
        · rw [hfull, List.length_drop, List.length_cons]
          omega
      have hdrop : ∀ k, k ≤ u.length → ∀ cs, (u ++ cs).drop k = u.drop k ++ cs :=
        fun k hk cs => List.drop_append_of_le_length hk
      have hle := h.le
      rw [List.cons_append] at h hgood hle
      rw [List.cons_append, List.cons_append]
      cases hquote : c == quote with
      | true =>
        rw [readString, readString]
        simp [hquote]
      | false =>
      cases hnewline : isNewline c with
      | true =>
        rw [readString, readString]
        simp [hquote, hnewline]
      | false =>
      cases hback : c == '\\' with
      | false =>
        rw [readString_plain hquote hnewline hback] at h hgood
        rw [readString_plain hquote hnewline hback, readString_plain hquote hnewline hback]
        have := hrest 0 (Nat.zero_le _) (by simpa [Nat.add_comm] using h)
          (by simpa [Nat.add_comm] using hgood)
        rw [List.drop_zero] at this
        rw [this]
      | true =>
        by_cases hend : u ++ y = []
        · -- the text ends with the backslash
          obtain ⟨rfl, rfl⟩ := List.append_eq_nil_iff.1 hend
          rw [h.nil (by rw [readString]; simp [hquote, hnewline, hback]) rfl]
        rw [readString_backslash hquote hnewline hback hend] at h hgood hle
        dsimp only at h hgood hle
        have hk : (readBackslash (u ++ y)).2 ≤ u.length := by
          rw [List.length_cons] at hle
          omega
        have hu : u ≠ [] :=
          List.ne_nil_of_length_pos (Nat.lt_of_lt_of_le (readBackslash_pos hend) hk)
        have hend' : u ++ y' ≠ [] := List.append_ne_nil_of_left_ne_nil hu y'
        rw [hdrop _ hk] at h hgood
        rw [readString_backslash hquote hnewline hback hend',
          readString_backslash hquote hnewline hback hend, readBackslash_exchange hy hu h.first,
          hdrop _ hk, hdrop _ hk, hrest _ hk h hgood]

theorem readComment_cons_cons (c d : Char) (cs : List Char) :
    readComment (c :: d :: cs) =
      if c = '*' ∧ d = '/' then ([], 2)
      else (c :: (readComment (d :: cs)).1, 1 + (readComment (d :: cs)).2) := by
  by_cases hend : c = '*' ∧ d = '/'
  · obtain ⟨rfl, rfl⟩ := hend
    rfl
  · rw [if_neg hend, readComment]
    rintro tail rfl heq
    simp_all

theorem readComment_pos {cs : List Char} (h : cs ≠ []) : 0 < (readComment cs).2 := by
  unfold readComment
  split
  · simp
  · dsimp only
    omega
  · contradiction

/-- A comment that ends before `y` ends with its mark. -/
theorem getLast?_of_readComment {u : List Char} (hy : y ≠ [])
    (h : (readComment (u ++ y)).2 = u.length) : u.getLast? = some '/' := by
  induction u with
  | nil =>
    have hpos := readComment_pos hy
    rw [List.nil_append, List.length_nil] at h
    omega
  | cons c u ih =>
    obtain ⟨d, more, hnext⟩ := List.exists_cons_of_ne_nil (List.append_ne_nil_of_right_ne_nil u hy)
    rw [List.cons_append, hnext, readComment_cons_cons] at h
    split at h
    · next hmark =>
      have hlength : u.length = 1 := by simpa using h.symm
      obtain ⟨e, rfl⟩ := List.length_eq_one_iff.1 hlength
      obtain rfl : e = d := (List.cons.inj hnext).1
      simp [hmark.2]
    · rw [← hnext] at h
      dsimp only at h
      have hlast := ih (by rw [List.length_cons] at h; omega)
      rw [List.getLast?_cons, hlast, Option.getD_some]

theorem readComment_exchange {u : List Char} (hle : (readComment (u ++ y)).2 ≤ u.length)
    (hnil : (readComment (u ++ y)).2 = u.length → y = [] → y' = []) :
    readComment (u ++ y') = readComment (u ++ y) := by
  induction u with
  | nil =>
    by_cases hy : y = []
    · subst hy
      rw [hnil rfl rfl]
    · have hpos := readComment_pos hy
      rw [List.nil_append, List.length_nil] at hle
      omega
  | cons c u ih =>
    cases u with
    | nil =>
      by_cases hy : y = []
      · subst hy
        rw [hnil (by simp [readComment]) rfl]
      · obtain ⟨d, more, rfl⟩ := List.exists_cons_of_ne_nil hy
        have hpos := readComment_pos hy
        rw [List.singleton_append, readComment_cons_cons, List.length_singleton] at hle
        split at hle
        · simp at hle
        · dsimp only at hle
          omega
    | cons d u =>
      rw [List.cons_append, List.cons_append, readComment_cons_cons] at hle hnil
      rw [List.cons_append, List.cons_append, List.cons_append, List.cons_append,
        readComment_cons_cons, readComment_cons_cons]
      split
      · rfl
      · next hend =>
        rw [if_neg hend] at hle hnil
        dsimp only at hle hnil
        rw [List.length_cons] at hle hnil
        have hrest := ih (by rw [List.cons_append]; omega)
          fun hfull => hnil (by rw [List.cons_append] at hfull; omega)
        rw [List.cons_append, List.cons_append] at hrest
        rw [hrest]

theorem malformedLength_pos {c : Char} (h : c ≠ ')') (cs : List Char) :
    0 < malformedLength (c :: cs) := by
  unfold malformedLength
  split <;> first | omega | simp_all

theorem malformedLength_exchange {u : List Char} (h : malformedLength (u ++ y) < u.length) :
    malformedLength (u ++ y') = malformedLength (u ++ y) := by
  fun_induction malformedLength u
  case case1 => simp at h
  case case2 => simp [malformedLength]
  case case3 ih =>
    simp only [List.cons_append, malformedLength, List.length_cons] at h ⊢
    rw [ih (by omega)]
  case case4 ih =>
    simp only [List.cons_append, malformedLength, List.length_cons] at h ⊢
    rw [ih (by omega)]
  case case5 c cs hclose hescape hescape' ih =>
    cases cs with
    | nil =>
      have hpos := malformedLength_pos (fun hc => hclose hc) y
      simp only [List.cons_append, List.nil_append, List.length_singleton] at h
      omega
    | cons d cs =>
      have hplain : ∀ y, malformedLength (c :: (d :: cs ++ y)) =
          1 + malformedLength (d :: cs ++ y) := by
        intro y
        rw [malformedLength]
        · exact hclose
        · rintro tail hc htail
          exact hescape cs hc (by simp_all)
        · rintro tail hc htail
          exact hescape' cs hc (by simp_all)
      rw [List.cons_append, hplain, List.length_cons] at h
      rw [List.cons_append, hplain, ih (by omega)]
      exact (hplain y).symm

theorem drop_length_takeWhile (p : Char → Bool) (cs : List Char) :
    cs.drop (cs.takeWhile p).length = cs.dropWhile p := by
  conv => lhs; arg 2; rw [← List.takeWhile_append_dropWhile (p := p) (l := cs)]
  exact List.drop_left

section

variable {c : Char} {cs : List Char}

theorem readAddress_space (hc : isSpace c = true) :
    readAddress (c :: cs) =
      match cs.dropWhile isSpace with
      | [] => (some [], (cs.takeWhile isSpace).length + 1)
      | ')' :: _ => (some [], (cs.takeWhile isSpace).length + 2)
      | _ :: _ => (none, (cs.takeWhile isSpace).length + 2) := by
  rw [← drop_length_takeWhile]
  exact (readAddress.eq_2 c cs).trans (if_pos hc)

/-- A character that may not stand in an address. -/
def breaksAddress (c : Char) : Bool := isNonPrinting c || c == '"' || c == '\'' || c == '('

theorem readAddress_breaks (hc : isSpace c = false) (hclose : (c == ')') = false)
    (hbreaks : breaksAddress c = true) : readAddress (c :: cs) = (none, 1) := by
  unfold breaksAddress at hbreaks
  rw [readAddress]
  simp only [hc, hclose, hbreaks, Bool.false_eq_true, if_false, if_true]

theorem readAddress_escape (hc : isSpace c = false) (hclose : (c == ')') = false)
    (hbreaks : breaksAddress c = false) (hback : (c == '\\') = true) :
    readAddress (c :: cs) =
      if startsWith isNewline cs then (none, 1)
      else
        let rest := readAddress (cs.drop (readEscape cs).2)
        (rest.1.map ((readEscape cs).1 :: ·), (readEscape cs).2 + 1 + rest.2) := by
  unfold breaksAddress at hbreaks
  rw [readAddress]
  simp only [hc, hclose, hbreaks, hback, Bool.false_eq_true, if_false, if_true]

theorem readAddress_plain (hc : isSpace c = false) (hclose : (c == ')') = false)
    (hbreaks : breaksAddress c = false) (hback : (c == '\\') = false) :
    readAddress (c :: cs) =
      let rest := readAddress cs
      (rest.1.map (shownChar c :: ·), 1 + rest.2) := by
  unfold breaksAddress at hbreaks
  rw [readAddress]
  simp only [hc, hclose, hbreaks, hback, Bool.false_eq_true, if_false]

end

theorem readAddress_pos {cs : List Char} (h : cs ≠ []) : 0 < (readAddress cs).2 := by
  cases cs with
  | nil => exact absurd rfl h
  | cons c cs =>
    cases hc : isSpace c with
    | true =>
      rw [readAddress_space hc]
      split <;> simp
    | false =>
    cases hclose : c == ')' with
    | true =>
      rw [readAddress]
      simp [hc, hclose]
    | false =>
    cases hbreaks : breaksAddress c with
    | true => simp [readAddress_breaks hc hclose hbreaks]
    | false =>
    cases hback : c == '\\' with
    | true =>
      rw [readAddress_escape hc hclose hbreaks hback]
      split
      · simp
      · dsimp only
        omega
    | false =>
      rw [readAddress_plain hc hclose hbreaks hback]
      dsimp only
      omega

/-- White space runs up to the same character, whatever follows that character. -/
theorem span_append {p : Char → Bool} {u : List Char} (h : ∃ c ∈ u, p c = false) (y : List Char) :
    (u ++ y).takeWhile p = u.takeWhile p ∧ (u ++ y).dropWhile p = u.dropWhile p ++ y ∧
      u.dropWhile p ≠ [] := by
  obtain ⟨c, hc, hp⟩ := h
  induction u with
  | nil => simp at hc
  | cons d u ih =>
    cases hd : p d with
    | false => simp [hd]
    | true =>
      have hmem : c ∈ u := by
        rcases List.mem_cons.1 hc with rfl | hc
        · simp [hp] at hd
        · exact hc
      simpa [hd] using ih hmem

theorem span_append_of_all {p : Char → Bool} {u : List Char} (h : ∀ c ∈ u, p c = true)
    (y : List Char) :
    (u ++ y).takeWhile p = u ++ y.takeWhile p ∧ (u ++ y).dropWhile p = y.dropWhile p :=
  ⟨List.takeWhile_append_of_pos h, List.dropWhile_append_of_pos h⟩

/-- White space behind an address, up to the mark that ends it or that does not belong there. -/
theorem readAddress_space_exchange {c : Char} (hc : isSpace c = true) {u : List Char}
    (h : Halts (readAddress (c :: (u ++ y))).2 (c :: u) y y') :
    readAddress (c :: (u ++ y')) = readAddress (c :: (u ++ y)) := by
  have hle := h.le
  rw [readAddress_space hc] at h hle
  rw [readAddress_space hc, readAddress_space hc]
  by_cases hinside : ∃ d ∈ u, isSpace d = false
  · obtain ⟨htake, hdrop, hne⟩ := span_append hinside y
    obtain ⟨htake', hdrop', -⟩ := span_append hinside y'
    obtain ⟨d, more, hcons⟩ := List.exists_cons_of_ne_nil hne
    simp only [htake, hdrop, htake', hdrop', hcons, List.cons_append]
    split <;> simp_all
  · have hall : ∀ d ∈ u, isSpace d = true := by simpa using hinside
    obtain ⟨htake, hdrop⟩ := span_append_of_all hall y
    rw [htake, hdrop, List.length_append] at h hle
    cases y with
    | nil => simp [h.nil (by simp) rfl]
    | cons d y =>
      -- the text that follows would have been read on into
      exfalso
      cases hd : isSpace d with
      | true =>
        simp only [List.takeWhile_cons, List.dropWhile_cons, hd, if_true, List.length_cons] at hle
        split at hle <;> dsimp only at hle <;> omega
      | false =>
        simp only [List.takeWhile_cons, List.dropWhile_cons, hd, Bool.false_eq_true, if_false,
          List.length_cons, List.length_nil] at hle
        split at hle
        · contradiction
        · simp at hle
        · simp at hle

/-- An address that has been closed or that the text ends, or one that goes wrong before its
end. -/
theorem readAddress_exchange (hy : Exchange y y') {u : List Char}
    (h : Halts (readAddress (u ++ y)).2 u y y')
    (hgood : (readAddress (u ++ y)).1 = none → (readAddress (u ++ y)).2 < u.length) :
    readAddress (u ++ y') = readAddress (u ++ y) := by
  induction hn : u.length using Nat.strongRecOn generalizing u with
  | ind n ih =>
    cases u with
    | nil =>
      by_cases hnil : y = []
      · subst hnil
        simp [h.nil (by simp [readAddress]) rfl]
      · have hzero : (readAddress y).2 = 0 := by simpa using h.le
        have hpos := readAddress_pos hnil
        omega
    | cons c u =>
      -- the rest after one character of the address is covered by the induction
      have hrest : ∀ k, k ≤ u.length →
          Halts (k + 1 + (readAddress (u.drop k ++ y)).2) (c :: u) y y' →
          ((readAddress (u.drop k ++ y)).1 = none →
            k + 1 + (readAddress (u.drop k ++ y)).2 < (c :: u).length) →
          readAddress (u.drop k ++ y') = readAddress (u.drop k ++ y) := by
        intro k hk hhalts hgood
        refine ih _ ?_ (hhalts.drop (k := k + 1)) (fun hnone => ?_) rfl
        · rw [← hn, List.length_drop, List.length_cons]
          omega
        · have := hgood hnone
          rw [List.length_drop]
          rw [List.length_cons] at this
          omega
      have hle := h.le
      rw [List.cons_append] at h hgood hle
      rw [List.cons_append, List.cons_append]
      cases hc : isSpace c with
      | true => exact readAddress_space_exchange hc h
      | false =>
      cases hclose : c == ')' with
      | true =>
        rw [readAddress, readAddress]
        simp [hc, hclose]
      | false =>
      cases hbreaks : breaksAddress c with
      | true => rw [readAddress_breaks hc hclose hbreaks, readAddress_breaks hc hclose hbreaks]
      | false =>
      cases hback : c == '\\' with
      | true =>
        rw [readAddress_escape hc hclose hbreaks hback] at h hgood hle
        rw [readAddress_escape hc hclose hbreaks hback, readAddress_escape hc hclose hbreaks hback]
        have hstarts : startsWith isNewline (u ++ y') = startsWith isNewline (u ++ y) := by
          cases u with
          | cons d u => rfl
          | nil =>
            rw [List.nil_append, List.nil_append, hy.unbroken]
            refine (eq_false_of_ne_true fun hnewline => ?_).symm
            simp [hnewline] at hgood
        rw [hstarts]
        split
        · rfl
        · next hnewline =>
          rw [if_neg hnewline] at h hgood hle
          dsimp only at h hgood hle
          have hk : (readEscape (u ++ y)).2 ≤ u.length := by
            rw [List.length_cons] at hle
            omega
          rw [List.drop_append_of_le_length hk] at h hgood
          have hrest := hrest _ hk h (fun hnone => hgood (by rw [hnone, Option.map_none]))
          rw [readEscape_exchange hy h.first, List.drop_append_of_le_length hk,
            List.drop_append_of_le_length hk, hrest]
      | false =>
        rw [readAddress_plain hc hclose hbreaks hback] at h hgood
        rw [readAddress_plain hc hclose hbreaks hback, readAddress_plain hc hclose hbreaks hback]
        have := hrest 0 (Nat.zero_le _) (by simpa [Nat.add_comm] using h)
          (by simpa [Nat.add_comm] using hgood)
        rw [List.drop_zero] at this
        rw [this]

/-- The token of an address without quotes. -/
def readBare (body : List Char) : Token × Nat :=
  match readAddress body with
  | (some value, n) => (.url (String.ofList value), n)
  | (none, n) =>
    let more := malformedLength (body.drop n)
    let close := if (body.drop (n + more)).isEmpty then 0 else 1
    (.badUrl (String.ofList (body.take (n + more))), n + more + close)

theorem readBare_of_some {body value : List Char} {n : Nat}
    (h : readAddress body = (some value, n)) :
    readBare body = (.url (String.ofList value), n) := by
  simp only [readBare, h]

theorem readBare_of_none {body : List Char} {n : Nat} (h : readAddress body = (none, n)) :
    readBare body =
      let more := malformedLength (body.drop n)
      let close := if (body.drop (n + more)).isEmpty then 0 else 1
      (.badUrl (String.ofList (body.take (n + more))), n + more + close) := by
  simp only [readBare, h]

theorem readUrl_of_nil {cs : List Char} (h : cs.dropWhile isSpace = []) (name : List Char) :
    readUrl name cs = (.url "", (cs.takeWhile isSpace).length) := by
  rw [readUrl]
  simp only [drop_length_takeWhile, h]

theorem readUrl_of_cons {cs body : List Char} {c : Char} (h : cs.dropWhile isSpace = c :: body)
    (name : List Char) :
    readUrl name cs =
      if c = '"' ∨ c = '\'' then (.function (String.ofList name), 0)
      else ((readBare (c :: body)).1, (cs.takeWhile isSpace).length + (readBare (c :: body)).2) := by
  by_cases hdouble : c = '"'
  · subst hdouble
    rw [readUrl]
    simp only [drop_length_takeWhile, h, true_or, if_true]
  by_cases hsingle : c = '\''
  · subst hsingle
    rw [readUrl]
    simp only [drop_length_takeWhile, h, or_true, if_true]
  rw [readUrl]
  simp only [drop_length_takeWhile, h, readBare, hdouble, hsingle, or_self, if_false]
  split
  · simp_all
  · simp_all
  · simp_all
  · split <;> simp [Nat.add_assoc, *]

theorem readBare_pos {body : List Char} (h : body ≠ []) : 0 < (readBare body).2 := by
  have hpos := readAddress_pos h
  cases haddress : readAddress body with
  | mk value n =>
    rw [haddress] at hpos
    cases value with
    | some value =>
      rw [readBare_of_some haddress]
      exact hpos
    | none =>
      rw [readBare_of_none haddress]
      dsimp only at hpos ⊢
      omega

theorem readBare_exchange (hy : Exchange y y') {u : List Char}
    (h : Halts (readBare (u ++ y)).2 u y y') : readBare (u ++ y') = readBare (u ++ y) := by
  cases haddress : readAddress (u ++ y) with
  | mk value n =>
    cases value with
    | some value =>
      rw [readBare_of_some haddress] at h
      have haddress' := readAddress_exchange hy (by rwa [haddress]) (by simp [haddress])
      rw [readBare_of_some haddress, readBare_of_some (haddress'.trans haddress)]
    | none =>
      rw [readBare_of_none haddress] at h
      by_cases hend : y = [] ∧ y' = []
      · rw [hend.1, hend.2]
      dsimp only at h
      generalize hmore : malformedLength ((u ++ y).drop n) = more at h
      have hlt : n + more < u.length := by
        refine Nat.lt_of_not_le fun hge => hend ?_
        have hle := h.le
        have hfull : n + more = u.length := by omega
        have hclose : (if ((u ++ y).drop (n + more)).isEmpty then 0 else 1) = 0 := by omega
        have hy : y = [] := by
          rw [hfull, List.drop_left] at hclose
          simpa using hclose
        exact ⟨hy, h.nil (by omega) hy⟩
      have haddress' : readAddress (u ++ y') = (none, n) := by
        rw [← haddress]
        refine readAddress_exchange hy ?_ (by rw [haddress]; exact fun _ => by omega)
        rw [haddress]
        exact ⟨by omega, fun _ => by omega, fun _ => by omega⟩
      have hdrop : ∀ k, k ≤ u.length → ∀ cs, (u ++ cs).drop k = u.drop k ++ cs :=
        fun k hk cs => List.drop_append_of_le_length hk
      have hmore' : malformedLength ((u ++ y').drop n) = more := by
        rw [← hmore, hdrop n (by omega), hdrop n (by omega)]
        rw [hdrop n (by omega)] at hmore
        refine malformedLength_exchange ?_
        rw [hmore, List.length_drop]
        omega
      have hleft : u.drop (n + more) ≠ [] := by
        rw [Ne, List.drop_eq_nil_iff]
        omega
      rw [readBare_of_none haddress, readBare_of_none haddress', hmore, hmore']
      dsimp only
      rw [hdrop _ (by omega), hdrop _ (by omega), List.take_append_of_le_length (by omega),
        List.take_append_of_le_length (by omega)]
      simp [hleft]

/-- The same character follows, and it is no space. -/
def SameHead (y y' : List Char) : Prop :=
  ∃ c more more', y = c :: more ∧ y' = c :: more' ∧ isSpace c = false

/-- The token after `url(`. Where a quoted address follows, it is read as a function, so something
besides white space has to follow that is the same for both texts. -/
theorem readUrl_exchange (hy : Exchange y y') {name u : List Char}
    (h : Halts (readUrl name (u ++ y)).2 u y y')
    (hfun : ∀ s, (readUrl name (u ++ y)).1 = .function s →
      (∃ c ∈ u, isSpace c = false) ∨ SameHead y y') :
    readUrl name (u ++ y') = readUrl name (u ++ y) := by
  by_cases hinside : ∃ c ∈ u, isSpace c = false
  · obtain ⟨htake, hdrop, hne⟩ := span_append hinside y
    obtain ⟨htake', hdrop', -⟩ := span_append hinside y'
    obtain ⟨c, more, hcons⟩ := List.exists_cons_of_ne_nil hne
    rw [hcons, List.cons_append] at hdrop hdrop'
    rw [readUrl_of_cons hdrop] at h
    rw [readUrl_of_cons hdrop, readUrl_of_cons hdrop']
    split
    · rfl
    · next hquote =>
      rw [if_neg hquote, htake] at h
      have hhalts := h.drop
      rw [drop_length_takeWhile, hcons] at hhalts
      have hbare := readBare_exchange hy (u := c :: more) hhalts
      rw [List.cons_append, List.cons_append] at hbare
      rw [hbare, htake, htake']
  · have hall : ∀ c ∈ u, isSpace c = true := by simpa using hinside
    obtain ⟨htake, hdrop⟩ := span_append_of_all hall y
    cases y with
    | nil =>
      rw [readUrl_of_nil (by simpa using hdrop), htake] at h
      rw [h.nil (by simp) rfl]
    | cons c more =>
      have hle := h.le
      cases hc : isSpace c with
      | true =>
        exfalso
        have hpast : u.length < (List.takeWhile isSpace (u ++ c :: more)).length := by
          rw [htake]
          simp [hc]
        cases hbody : (c :: more).dropWhile isSpace with
        | nil =>
          rw [readUrl_of_nil (hdrop.trans hbody)] at hle
          dsimp only at hle
          omega
        | cons d body =>
          rw [readUrl_of_cons (hdrop.trans hbody)] at hfun hle
          split at hle
          · next hquote =>
            rw [if_pos hquote] at hfun
            rcases hfun _ rfl with hinside' | ⟨e, _, _, hhead, -, he⟩
            · exact hinside hinside'
            · obtain rfl := (List.cons.inj hhead).1
              simp [hc] at he
          · dsimp only at hle
            omega
      | false =>
        have hbody : (u ++ c :: more).dropWhile isSpace = c :: more := by simp [hdrop, hc]
        rw [readUrl_of_cons hbody] at hfun hle
        rw [readUrl_of_cons hbody]
        split
        · next hquote =>
          rw [if_pos hquote] at hfun
          rcases hfun _ rfl with hinside' | ⟨e, _, more', hhead, rfl, he⟩
          · exact absurd hinside' hinside
          · obtain rfl := (List.cons.inj hhead).1
            have hbody' : (u ++ c :: more').dropWhile isSpace = c :: more' := by
              simp [span_append_of_all hall, hc]
            rw [readUrl_of_cons hbody', if_pos hquote]
        · next hquote =>
          rw [if_neg hquote, htake] at hle
          have hpos := readBare_pos (List.cons_ne_nil c more)
          simp only [List.length_append] at hle
          omega

theorem readIdentLike_of_bracket {cs rest : List Char}
    (h : cs.drop (readName cs).2 = '(' :: rest) :
    readIdentLike cs =
      if Text.sameAscii (String.ofList (readName cs).1) "url" then
        ((readUrl (readName cs).1 rest).1, (readName cs).2 + 1 + (readUrl (readName cs).1 rest).2)
      else (.function (String.ofList (readName cs).1), (readName cs).2 + 1) := by
  rw [readIdentLike]
  simp only [h]

theorem readIdentLike_of_no_bracket {cs : List Char}
    (h : ∀ rest, cs.drop (readName cs).2 ≠ '(' :: rest) :
    readIdentLike cs = (.ident (String.ofList (readName cs).1), (readName cs).2) := by
  rw [readIdentLike]
  dsimp only
  split
  · next rest heq => exact absurd heq (h rest)
  · rfl

theorem readName_le_readIdentLike (cs : List Char) : (readName cs).2 ≤ (readIdentLike cs).2 := by
  rw [readIdentLike]
  dsimp only
  split
  · split <;> dsimp only <;> omega
  · exact Nat.le_refl _

theorem readIdentLike_exchange (hy : Exchange y y') {u : List Char}
    (h : Halts (readIdentLike (u ++ y)).2 u y y') (hbreak : Unbroken (readIdentLike (u ++ y)).2 u y)
    (hfun : ∀ s, (readIdentLike (u ++ y)).1 = .function s →
      (∃ c ∈ u.drop (readIdentLike (u ++ y)).2, isSpace c = false) ∨ SameHead y y') :
    readIdentLike (u ++ y') = readIdentLike (u ++ y) := by
  have hname : Halts (readName (u ++ y)).2 u y y' := h.of_le (readName_le_readIdentLike _)
  have hdrop := fun cs => @List.drop_append_of_le_length Char _ cs _ hname.le
  have hsplit : u.drop (readName (u ++ y)).2 = [] ∨
      ∃ c rest, u.drop (readName (u ++ y)).2 = c :: rest := by
    cases u.drop (readName (u ++ y)).2 <;> simp
  by_cases hbracket : ∃ rest, u.drop (readName (u ++ y)).2 = '(' :: rest
  · obtain ⟨rest, hrest⟩ := hbracket
    have hname' := readName_exchange hy hname (fun _ => by simp [hrest])
    have hopen : ∀ cs, (u ++ cs).drop (readName (u ++ y)).2 = '(' :: (rest ++ cs) := by
      simp [hdrop, hrest]
    have hopen' := hopen y'
    rw [← hname'] at hopen'
    rw [readIdentLike_of_bracket (hopen y)] at h hfun
    rw [readIdentLike_of_bracket (hopen y), readIdentLike_of_bracket hopen', hname']
    split
    · next hurl =>
      rw [if_pos hurl] at h hfun
      have hskip : u.drop ((readName (u ++ y)).2 + 1) = rest := by
        rw [← List.drop_drop, hrest]
        rfl
      have hhalts := h.drop
      rw [hskip] at hhalts
      rw [readUrl_exchange hy hhalts]
      intro s hs
      refine (hfun s hs).imp (fun ⟨c, hc, hspace⟩ => ⟨c, ?_, hspace⟩) id
      rw [← List.drop_drop, hskip] at hc
      exact List.mem_of_mem_drop hc
    · rfl
  · have hclosed : ∀ {cs}, Stops cs → ∀ rest, (u ++ cs).drop (readName (u ++ y)).2 ≠ '(' :: rest := by
      intro cs hcs rest heq
      rw [hdrop] at heq
      rcases hsplit with hnil | ⟨c, more, hcons⟩
      · rw [hnil] at heq
        exact hcs.head_ne (.inr (by decide)) rest heq
      · rw [hcons, List.cons_append] at heq
        obtain ⟨rfl, -⟩ := List.cons.inj heq
        exact hbracket ⟨more, hcons⟩
    rw [readIdentLike_of_no_bracket (hclosed hy.stops)] at hbreak
    have hname' := readName_exchange hy hname hbreak
    have hclosed' := hclosed hy.stops'
    rw [← hname'] at hclosed'
    rw [readIdentLike_of_no_bracket (hclosed hy.stops), readIdentLike_of_no_bracket hclosed', hname']

/-! ## Numbers -/

theorem readSign_of_stops (h : Stops y) : readSign y = none := by
  unfold readSign
  split
  · exact absurd rfl (h.head_ne (.inl (by decide)) _)
  · exact absurd rfl (h.head_ne (.inr (by decide)) _)
  · rfl

theorem readSign_append (h : Stops y) (u : List Char) : readSign (u ++ y) = readSign u := by
  cases u with
  | nil => exact readSign_of_stops h
  | cons c u =>
    unfold readSign
    split <;> simp_all

theorem signLength_readSign_le (u : List Char) : signLength (readSign u) ≤ u.length := by
  unfold readSign
  split <;> simp [signLength]

theorem digitRun_append (h : Stops y) (u : List Char) : digitRun (u ++ y) = digitRun u := by
  rw [digitRun, digitRun, takeWhile_append_of_stops h fun c hc => .inl (isNameChar_of_isDigit hc)]

theorem length_digitRun_le (u : List Char) : (digitRun u).length ≤ u.length := by
  rw [digitRun, List.length_map]
  exact (List.takeWhile_prefix _).length_le

theorem startsWith_append_of_stops (h : Stops y) {p : Char → Bool}
    (hp : ∀ c, p c = true → isNameChar c = true ∨ c ∈ carriers) (u : List Char) :
    startsWith p (u ++ y) = startsWith p u := by
  cases u with
  | nil => exact h.startsWith_eq_false hp
  | cons c u => rfl

theorem readFraction_cons (c : Char) (u : List Char) :
    readFraction (c :: u) =
      if c = '.' ∧ startsWith Char.isDigit u = true then some (digitRun u) else none := by
  by_cases hc : c = '.'
  · subst hc
    rw [readFraction]
    simp
  · rw [if_neg (fun h => hc h.1), readFraction]
    intro tail heq
    exact hc (List.cons.inj heq).1

theorem readFraction_append (h : Stops y) (u : List Char) :
    readFraction (u ++ y) = readFraction u := by
  have hdigit := startsWith_append_of_stops h (p := Char.isDigit)
    fun c hc => .inl (isNameChar_of_isDigit hc)
  cases u with
  | nil =>
    cases y with
    | nil => rfl
    | cons c y =>
      rw [List.nil_append, readFraction_cons, if_neg]
      · rfl
      · rintro ⟨rfl, -⟩
        exact h.not_mem_carriers (by decide)
  | cons c u => rw [List.cons_append, readFraction_cons, readFraction_cons, hdigit, digitRun_append h]

theorem fractionLength_readFraction_le (u : List Char) :
    fractionLength (readFraction u) ≤ u.length := by
  cases u with
  | nil => simp [readFraction, fractionLength]
  | cons c u =>
    rw [readFraction_cons]
    split
    · simpa [fractionLength] using length_digitRun_le u
    · simp [fractionLength]

theorem readExponent_append (h : Stops y) (u : List Char) :
    readExponent (u ++ y) = readExponent u := by
  cases u with
  | nil =>
    cases y with
    | nil => rfl
    | cons c y =>
      have hc := h.not_isNameChar
      rw [List.nil_append, readExponent, if_neg]
      · rfl
      · intro hletter
        simp only [Bool.or_eq_true, beq_iff_eq] at hletter
        rcases hletter with rfl | rfl <;> simp [isNameChar, isNameStart] at hc
  | cons c u =>
    rw [List.cons_append, readExponent, readExponent]
    simp only [readSign_append h, List.drop_append_of_le_length (signLength_readSign_le u),
      digitRun_append h]

theorem exponentLength_readExponent_le (u : List Char) :
    exponentLength (readExponent u) ≤ u.length := by
  cases u with
  | nil => simp [readExponent, exponentLength]
  | cons c u =>
    have hsign := signLength_readSign_le u
    have hdigits := length_digitRun_le (u.drop (signLength (readSign u)))
    rw [List.length_drop] at hdigits
    rw [readExponent]
    split
    · dsimp only
      split
      · simp [exponentLength]
      · simp only [exponentLength, Option.elim_some, List.length_cons]
        omega
    · simp [exponentLength]

/-- The parts of a number come one after another. -/
theorem readNumeral_bounds (u : List Char) :
    let w := signLength (readSign u) + (digitRun (u.drop (signLength (readSign u)))).length
    let f := w + fractionLength (readFraction (u.drop w))
    w ≤ u.length ∧ f ≤ u.length ∧ (readNumeral u).2 ≤ u.length := by
  intro w f
  have hsign := signLength_readSign_le u
  have hdigits := length_digitRun_le (u.drop (signLength (readSign u)))
  have hfraction := fractionLength_readFraction_le (u.drop w)
  have hexponent := exponentLength_readExponent_le (u.drop f)
  have htotal : (readNumeral u).2 = f + exponentLength (readExponent (u.drop f)) := rfl
  rw [List.length_drop] at hdigits hfraction hexponent
  omega

theorem readNumeral_append (h : Stops y) (u : List Char) :
    readNumeral (u ++ y) = readNumeral u := by
  obtain ⟨hw, hf, -⟩ := readNumeral_bounds u
  have hsign := @List.drop_append_of_le_length Char _ y _ (signLength_readSign_le u)
  rw [readNumeral, readNumeral]
  simp only [readSign_append h, hsign, digitRun_append h, List.drop_append_of_le_length hw,
    readFraction_append h, List.drop_append_of_le_length hf, readExponent_append h]

theorem startsDigits_append (h : Stops y) (u : List Char) :
    startsDigits (u ++ y) = startsDigits u := by
  have hdigit := startsWith_append_of_stops h (p := Char.isDigit)
    fun c hc => .inl (isNameChar_of_isDigit hc)
  cases u with
  | nil =>
    unfold startsDigits
    split
    · next heq => exact absurd heq (h.head_ne (.inr (by decide)) _)
    · exact hdigit []
  | cons c u =>
    unfold startsDigits
    split
    · next heq =>
      obtain ⟨rfl, rfl⟩ := List.cons.inj heq
      exact hdigit u
    · next hpoint =>
      split
      · next heq =>
        obtain ⟨rfl, rfl⟩ := List.cons.inj heq
        exact absurd rfl (hpoint _)
      · rfl

theorem startsNumber_append (h : Stops y) (u : List Char) :
    startsNumber (u ++ y) = startsNumber u := by
  rw [startsNumber, startsNumber, readSign_append h,
    List.drop_append_of_le_length (signLength_readSign_le u), startsDigits_append h]

theorem readSign_of_ne {c : Char} (hminus : c ≠ '-') (hplus : c ≠ '+') (cs : List Char) :
    readSign (c :: cs) = none := by
  unfold readSign
  split <;> simp_all

theorem startsDigits_of_ne {c : Char} (hpoint : c ≠ '.') (cs : List Char) :
    startsDigits (c :: cs) = c.isDigit := by
  unfold startsDigits
  split <;> simp_all

theorem startsNumber_of_ne {c : Char} (hminus : c ≠ '-') (hplus : c ≠ '+') (cs : List Char) :
    startsNumber (c :: cs) = startsDigits (c :: cs) := by
  rw [startsNumber, readSign_of_ne hminus hplus]
  rfl

theorem startsIdent_hyphen (cs : List Char) :
    startsIdent ('-' :: cs) = startsWith (fun c => isNameStart c || c == '-' || c == '\\') cs := by
  cases cs with
  | nil => decide
  | cons c cs => rfl

theorem startsIdent_of_ne {c : Char} (hyphen : c ≠ '-') (hback : c ≠ '\\') (cs : List Char) :
    startsIdent (c :: cs) = isNameStart c := by
  unfold startsIdent
  split <;> simp_all

theorem startsIdent_append (h : Stops y) {u : List Char}
    (hbreak : startsWith isNewline y = true → u ≠ ['\\']) :
    startsIdent (u ++ y) = startsIdent u := by
  cases u with
  | nil =>
    cases y with
    | nil => rfl
    | cons c y =>
      have hname := h.not_isNameChar
      rw [List.nil_append, startsIdent_of_ne]
      · exact eq_false_of_ne_true fun hstart => by simp [isNameChar, hstart] at hname
      · rintro rfl
        simp [isNameChar] at hname
      · rintro rfl
        exact h.not_mem_carriers (by decide)
  | cons c u =>
    rw [List.cons_append]
    by_cases hyphen : c = '-'
    · subst hyphen
      rw [startsIdent_hyphen, startsIdent_hyphen]
      refine startsWith_append_of_stops h (fun c hc => ?_) u
      simp only [Bool.or_eq_true, beq_iff_eq] at hc
      rcases hc with (hc | rfl) | rfl
      · exact .inl (isNameChar_of_isNameStart hc)
      · exact .inl (by decide)
      · exact .inr (by decide)
    by_cases hback : c = '\\'
    · subst hback
      cases u with
      | cons d u => rfl
      | nil =>
        have hnewline : startsWith isNewline y = false :=
          eq_false_of_ne_true fun hnewline => hbreak hnewline rfl
        simp [startsIdent, hnewline]
    · rw [startsIdent_of_ne hyphen hback, startsIdent_of_ne hyphen hback]

/-- A backslash before a line break begins no name. -/
theorem startsIdent_lone (h : startsWith isNewline y = true) :
    startsIdent (['\\'] ++ y) = false := by
  rw [List.singleton_append, startsIdent, h]
  rfl

theorem readNumeric_exchange (hy : Exchange y y') {u : List Char}
    (h : Halts (readNumeric (u ++ y)).2 u y y') (hbreak : Unbroken (readNumeric (u ++ y)).2 u y) :
    readNumeric (u ++ y') = readNumeric (u ++ y) := by
  obtain ⟨-, -, hle⟩ := readNumeral_bounds u
  have hdrop := fun cs => @List.drop_append_of_le_length Char _ cs _ hle
  have hpercent := fun {cs} (hcs : Stops cs) =>
    startsWith_append_of_stops hcs (p := (· == '%')) (fun c hc => .inr (by simp_all [carriers]))
      (u.drop (readNumeral u).2)
  rw [readNumeric] at h hbreak
  rw [readNumeric, readNumeric]
  simp only [readNumeral_append hy.stops, readNumeral_append hy.stops', hdrop, hpercent hy.stops,
    hpercent hy.stops'] at h hbreak ⊢
  split
  · rfl
  · next hplain =>
    rw [if_neg hplain] at h hbreak
    by_cases hlone : startsWith isNewline y = true ∧ u.drop (readNumeral u).2 = ['\\']
    · rw [hlone.2, startsIdent_lone hlone.1, if_neg (by simp)] at hbreak
      exact absurd hlone.2 (hbreak hlone.1)
    · have hident := startsIdent_append hy.stops (u := u.drop (readNumeral u).2)
        fun hnewline hdrop => hlone ⟨hnewline, hdrop⟩
      have hident' := startsIdent_append hy.stops' (u := u.drop (readNumeral u).2)
        fun hnewline => by simp [hy.unbroken] at hnewline
      rw [hident] at h hbreak ⊢
      rw [hident']
      split
      · next hunit =>
        rw [if_pos hunit] at h hbreak
        have hunit := readName_exchange hy h.drop fun hnewline => by
          have := hbreak hnewline
          rwa [← List.drop_drop] at this
        rw [hunit]
      · rfl

end

end StyleSieve.Css
