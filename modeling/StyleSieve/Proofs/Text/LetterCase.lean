import StyleSieve.Proofs.Text.Words
import StyleSieve.Text.Ascii

/-!
# Lower case and ASCII letters

A text in lower case stays as it is when it is lower cased again, and it does not depend on the case
of the ASCII letters it is made from. Nothing of the kind is claimed for other letters: a capital
and a small sigma at the end of a word are told apart.
-/

namespace StyleSieve.Text

/-! ## ASCII letters -/

theorem toNat_ofNat {n : Nat} (h : n.isValidChar) : (Char.ofNat n).toNat = n :=
  congrArg Char.toNat (dif_pos h : Char.ofNat n = Char.ofNatAux n h)

theorem toLower_eq_self_or (c : Char) :
    c.toLower = c ∨ ∃ n < 26, c = Char.ofNat (n + 0x41) ∧ c.toLower = Char.ofNat (n + 0x61) := by
  by_cases h : c.val ≥ 'A'.val ∧ c.val ≤ 'Z'.val
  · obtain ⟨hlo, hhi⟩ := h
    have hlo' : 0x41 ≤ c.toNat := hlo
    have hhi' : c.toNat ≤ 0x5A := hhi
    obtain ⟨n, hn⟩ : ∃ n, c.toNat = n + 0x41 := ⟨c.toNat - 0x41, by omega⟩
    have hc : c = Char.ofNat (n + 0x41) := by rw [← hn, Char.ofNat_toNat]
    have hsmall : ∀ n < 26, (Char.ofNat (n + 0x41)).toLower = Char.ofNat (n + 0x61) := by decide
    exact .inr ⟨n, by omega, hc, hc ▸ hsmall n (by omega)⟩
  · exact .inl (dif_neg h)

/-- What does not tell the capitals of ASCII from their small letters does not see the case. -/
theorem apply_toLower {α : Type} (f : Char → α)
    (h : ∀ n < 26, f (Char.ofNat (n + 0x61)) = f (Char.ofNat (n + 0x41))) (c : Char) :
    f c.toLower = f c := by
  rcases toLower_eq_self_or c with hc | ⟨n, hn, hc, hlower⟩
  · rw [hc]
  · rw [hlower, h n hn, hc]

@[simp] theorem toLower_toLower (c : Char) : c.toLower.toLower = c.toLower :=
  apply_toLower Char.toLower (by decide) c

theorem lowerChar_toLower (c : Char) : lowerChar c.toLower = lowerChar c :=
  apply_toLower lowerChar (by decide) c

theorem caseIgnorable_apart :
    ∀ r ∈ caseIgnorable, r.2 < 0x41 ∨ (0x5A < r.1 ∧ r.2 < 0x61) ∨ 0x7A < r.1 := by
  decide +kernel

/-- Case ignores no letter of ASCII. -/
theorem caseIgnorable_toLower (c : Char) : caseIgnorable.has c.toLower = caseIgnorable.has c := by
  have hletter : ∀ m, 0x41 ≤ m ∧ m ≤ 0x5A ∨ 0x61 ≤ m ∧ m ≤ 0x7A →
      caseIgnorable.has (Char.ofNat m) = false := by
    intro m hm
    rw [Bool.eq_false_iff]
    intro hhas
    obtain ⟨r, hr, hlo, hhi⟩ := Ranges.has_iff.1 hhas
    rw [toNat_ofNat (.inl (by omega))] at hlo hhi
    have := caseIgnorable_apart r hr
    omega
  refine apply_toLower _ (fun n hn => ?_) c
  rw [hletter _ (by omega), hletter _ (by omega)]

theorem casedNext_map_toLower (cs : List Char) :
    casedNext (cs.map Char.toLower) = casedNext cs := by
  have hignorable : caseIgnorable.has ∘ Char.toLower = caseIgnorable.has :=
    funext caseIgnorable_toLower
  rw [casedNext, casedNext, List.dropWhile_map, hignorable]
  cases cs.dropWhile caseIgnorable.has with
  | nil => rfl
  | cons c cs => exact apply_toLower cased.has (by decide +kernel) c

theorem lowerAfter_map_toLower (before cs : List Char) :
    lowerAfter (before.map Char.toLower) (cs.map Char.toLower) = lowerAfter before cs := by
  induction cs generalizing before with
  | nil => rfl
  | cons c cs ih =>
    have hsigma : (c.toLower.toNat = 0x3A3) ↔ (c.toNat = 0x3A3) :=
      decide_eq_decide.1 (apply_toLower (fun c => decide (c.toNat = 0x3A3)) (by decide) c)
    have hrest := ih (c :: before)
    rw [List.map_cons] at hrest
    simp only [List.map_cons, lowerAfter, hsigma, casedNext_map_toLower, hrest, lowerChar_toLower]

/-- The case of ASCII letters is lost in lower casing. -/
theorem lowerCase_lowerAscii (s : String) : lowerCase (lowerAscii s) = lowerCase s := by
  rw [lowerCase, lowerAscii, String.toList_ofList, lowerCase, ← lowerAfter_map_toLower [] s.toList]
  rfl

theorem lowerCase_of_sameAscii {s t : String} (h : lowerAscii s = lowerAscii t) :
    lowerCase s = lowerCase t := by
  rw [← lowerCase_lowerAscii s, h, lowerCase_lowerAscii]

/-! ## Texts in lower case -/

/-- A run of capitals is sent to no character of another run: the two are apart, or they take turns. -/
def missesRun (r s : Nat × Nat × Nat × Nat) : Bool :=
  Nat.blt (r.2.2.2 + (r.2.1 - r.1)) s.1 || Nat.blt s.2.1 r.2.2.2
    || ((r.2.2.1 == 2 || r.1 == r.2.1) && s.2.2.1 == 2 && (r.2.2.2 + s.1) % 2 == 1)

theorem all_missesRun :
    (capitalRuns.all fun r => capitalRuns.all (missesRun r)) = true := by
  decide +kernel

/-- Where the small letters of the runs of capitals lie. -/
theorem capitalRuns_images :
    ∀ r ∈ capitalRuns, 0x5F < r.2.2.2 ∧
      (r.2.2.2 + (r.2.1 - r.1) < 0x130 ∨ 0x130 < r.2.2.2) ∧
      (r.2.2.2 + (r.2.1 - r.1) < 0x3A3 ∨ 0x3A3 < r.2.2.2) ∧
      (r.2.2.2 + (r.2.1 - r.1) < 0xD800 ∨ 0xDFFF < r.2.2.2) ∧
      r.2.2.2 + (r.2.1 - r.1) < 0x110000 := by
  decide +kernel

theorem image_of_shiftBy {n m : Nat} (h : shiftBy capitalRuns n = some m) :
    0x5F < m ∧ m ≠ 0x130 ∧ m ≠ 0x3A3 ∧ m.isValidChar := by
  obtain ⟨⟨lo, hi, step, first⟩, hr, hm⟩ := List.exists_of_findSome?_eq_some h
  simp only [Option.ite_none_right_eq_some, Option.some.injEq] at hm
  obtain ⟨⟨hlo, hhi, -⟩, rfl⟩ := hm
  obtain ⟨habove, hdot, hsigma, hsurrogate, hlast⟩ := capitalRuns_images _ hr
  simp only at habove hdot hsigma hsurrogate hlast
  simp only [Nat.isValidChar]
  omega

/-- A small letter is no capital. -/
theorem shiftBy_of_shiftBy {n m : Nat} (h : shiftBy capitalRuns n = some m) :
    shiftBy capitalRuns m = none := by
  obtain ⟨⟨lo, hi, step, first⟩, hr, hm⟩ := List.exists_of_findSome?_eq_some h
  simp only [Option.ite_none_right_eq_some, Option.some.injEq] at hm
  obtain ⟨⟨hlo, hhi, hstep⟩, rfl⟩ := hm
  rw [shiftBy, List.findSome?_eq_none_iff]
  rintro ⟨lo', hi', step', first'⟩ hs
  have hmisses := List.all_eq_true.1 (List.all_eq_true.1 all_missesRun _ hr) _ hs
  simp only [missesRun, Bool.or_eq_true, Bool.and_eq_true, Nat.blt_eq, beq_iff_eq] at hmisses
  refine if_neg ?_
  rintro ⟨hlo', hhi', hstep'⟩
  rcases hmisses with (happart | happart) | ⟨⟨hturns, rfl⟩, hodd⟩
  · omega
  · omega
  · rcases hturns with rfl | rfl <;> omega

/-- A character that lower casing leaves alone wherever it stands. -/
structure IsSmall (c : Char) : Prop where
  ne_sigma : c.toNat ≠ 0x3A3
  lowerChar : lowerChar c = [c]

theorem isSmall_of_shiftBy {n m : Nat} (h : shiftBy capitalRuns n = some m) :
    IsSmall (Char.ofNat m) := by
  obtain ⟨habove, hdot, hsigma, hvalid⟩ := image_of_shiftBy h
  have hnat := toNat_ofNat hvalid
  refine ⟨by omega, ?_⟩
  rw [lowerChar, hnat, if_neg hdot, shiftBy_of_shiftBy h]
  split
  · -- A small letter of ASCII stands above its capitals.
    rcases toLower_eq_self_or (Char.ofNat m) with hself | ⟨k, hk, hcapital, -⟩
    · rw [hself]
    · have hbound : ∀ k < 26, (Char.ofNat (k + 0x41)).toNat < 0x5F := by decide
      have hbelow := hbound k hk
      rw [← hcapital] at hbelow
      omega
  · rfl

theorem isSmall_of_mem_lowerChar {c d : Char} (hc : c.toNat ≠ 0x3A3) (h : d ∈ lowerChar c) :
    IsSmall d := by
  have hlower := h
  rw [lowerChar] at h
  split at h
  · next hascii =>
    obtain rfl := List.mem_singleton.1 h
    refine ⟨?_, ?_⟩
    · have hbelow : ∀ n < 0x80, (Char.ofNat n).toLower.toNat < 0x80 := by decide
      have := hbelow c.toNat hascii
      rw [Char.ofNat_toNat] at this
      omega
    · rw [lowerChar_toLower, lowerChar_ascii hascii]
  split at h
  · rcases List.mem_cons.1 h with rfl | h
    · exact ⟨by decide, by decide⟩
    · obtain rfl := List.mem_singleton.1 h
      exact ⟨by decide, by decide +kernel⟩
  split at h
  · next m hm =>
    obtain rfl := List.mem_singleton.1 h
    exact isSmall_of_shiftBy hm
  · next hnone =>
    obtain rfl := List.mem_singleton.1 h
    refine ⟨hc, ?_⟩
    rw [lowerChar, if_neg ‹_›, if_neg ‹_›, hnone]

theorem isSmall_of_mem_lowerAfter {before cs : List Char} {d : Char}
    (h : d ∈ lowerAfter before cs) : IsSmall d := by
  induction cs generalizing before with
  | nil => cases h
  | cons c cs ih =>
    rw [lowerAfter] at h
    split at h
    · rcases List.mem_cons.1 h with rfl | h
      · split
        · exact ⟨by decide, by decide +kernel⟩
        · exact ⟨by decide, by decide +kernel⟩
      · exact ih h
    · next hc =>
      rcases List.mem_append.1 h with h | h
      · exact isSmall_of_mem_lowerChar hc h
      · exact ih h

theorem lowerAfter_of_isSmall {before cs : List Char} (h : ∀ c ∈ cs, IsSmall c) :
    lowerAfter before cs = cs := by
  induction cs generalizing before with
  | nil => rfl
  | cons c cs ih =>
    obtain ⟨hc, hlower⟩ := h c List.mem_cons_self
    rw [lowerAfter, if_neg hc, hlower, ih fun d hd => h d (List.mem_cons_of_mem c hd)]
    rfl

/-- A text in lower case stays as it is. -/
theorem lowerCase_lowerCase (s : String) : lowerCase (lowerCase s) = lowerCase s := by
  rw [lowerCase, lowerCase, String.toList_ofList,
    lowerAfter_of_isSmall fun c hc => isSmall_of_mem_lowerAfter hc]

/-! ## Low lines -/

theorem any_lowLine_lowerChar (c : Char) : (lowerChar c).any (· == '_') = (c == '_') := by
  rw [lowerChar]
  split
  · rw [List.any_cons, List.any_nil, Bool.or_false]
    exact apply_toLower (· == '_') (by decide) c
  have hc : (c == '_') = false := by
    rw [beq_eq_false_iff_ne]
    rintro rfl
    contradiction
  rw [hc]
  split
  · decide
  split
  · next m hm =>
    obtain ⟨habove, -, -, hvalid⟩ := image_of_shiftBy hm
    have hne : Char.ofNat m ≠ '_' := fun heq => by
      have hnat := toNat_ofNat hvalid
      rw [heq] at hnat
      have : ('_' : Char).toNat = 0x5F := rfl
      omega
    simpa using hne
  · simpa using hc

/-- Lower casing neither makes nor removes low lines. -/
theorem lowLine_mem_lowerCase (s : String) : '_' ∈ (lowerCase s).toList ↔ '_' ∈ s.toList := by
  have hmem : ∀ cs : List Char, '_' ∈ cs ↔ cs.any (· == '_') = true := fun cs => by simp
  rw [hmem, hmem, lowerCase, String.toList_ofList,
    any_lowerAfter any_lowLine_lowerChar (by decide) (by decide)]

end StyleSieve.Text
