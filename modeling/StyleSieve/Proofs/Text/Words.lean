import Mathlib.Data.List.DropRight
import Mathlib.Data.List.TakeWhile
import StyleSieve.Text.Blank
import StyleSieve.Text.LowerCase

/-!
# Words and letter case

The words of a text are free of blanks, and a run of characters of a wider class is a word if it has
no blank either. Lower casing neither makes nor removes blanks.
-/

namespace StyleSieve.Text

/-! ## Runs -/

/-- What stands before the first occurrence of a character. -/
theorem takeWhile_bne_append {c : Char} {cs : List Char} (h : c ∉ cs) (rest : List Char) :
    (cs ++ c :: rest).takeWhile (· != c) = cs := by
  rw [List.takeWhile_append_of_pos]
  · simp
  · intro d hd
    rw [bne_iff_ne]
    rintro rfl
    exact h hd

theorem takeWhile_bne_of_not_mem {c : Char} {cs : List Char} (h : c ∉ cs) :
    cs.takeWhile (· != c) = cs := by
  rw [List.takeWhile_eq_self_iff]
  intro d hd
  rw [bne_iff_ne]
  rintro rfl
  exact h hd

theorem length_takeWhile_bne_lt_iff {c : Char} {cs : List Char} :
    (cs.takeWhile (· != c)).length < cs.length ↔ c ∈ cs := by
  constructor
  · intro h
    by_contra hc
    rw [takeWhile_bne_of_not_mem hc] at h
    exact Nat.lt_irrefl _ h
  · intro h
    obtain ⟨before, after, rfl, hbefore⟩ := List.eq_append_cons_of_mem h
    rw [takeWhile_bne_append hbefore]
    simp

/-- A text is cut in one way at the first occurrence of a character. -/
theorem append_cons_inj_of_not_mem {c : Char} {cs ds rest rest' : List Char} (hcs : c ∉ cs)
    (hds : c ∉ ds) (h : cs ++ c :: rest = ds ++ c :: rest') : cs = ds ∧ rest = rest' := by
  have hfront := congrArg (List.takeWhile (· != c)) h
  rw [takeWhile_bne_append hcs, takeWhile_bne_append hds] at hfront
  subst hfront
  simpa using h

/-- A text is cut in one way at the last occurrence of a character. -/
theorem append_cons_inj_of_not_mem_right {c : Char} {cs ds rest rest' : List Char}
    (hrest : c ∉ rest) (hrest' : c ∉ rest') (h : cs ++ c :: rest = ds ++ c :: rest') :
    cs = ds ∧ rest = rest' := by
  have hreverse : rest.reverse ++ c :: cs.reverse = rest'.reverse ++ c :: ds.reverse := by
    simpa using congrArg List.reverse h
  obtain ⟨htail, hfront⟩ :=
    append_cons_inj_of_not_mem (by simpa using hrest) (by simpa using hrest') hreverse
  exact ⟨List.reverse_injective hfront, List.reverse_injective htail⟩

theorem forall_of_mem_runsFrom {p : Char → Bool} {w : List Char} {run cs : List Char}
    (hrun : ∀ c ∈ run, p c = true) (hw : w ∈ runsFrom p run cs) : ∀ c ∈ w, p c = true := by
  induction cs generalizing run with
  | nil =>
    rw [runsFrom] at hw
    split at hw
    · cases hw
    · rw [List.mem_singleton] at hw
      subst hw
      simpa using hrun
  | cons c cs ih =>
    rw [runsFrom] at hw
    split at hw
    · next hc =>
      refine ih (fun x hx => ?_) hw
      rcases List.mem_cons.1 hx with rfl | hx
      · exact hc
      · exact hrun x hx
    · split at hw
      · exact ih (by simp) hw
      · rcases List.mem_cons.1 hw with rfl | hw
        · simpa using hrun
        · exact ih (by simp) hw

theorem ne_nil_of_mem_runsFrom {p : Char → Bool} {w : List Char} {run cs : List Char}
    (hw : w ∈ runsFrom p run cs) : w ≠ [] := by
  fun_induction runsFrom p run cs with
  | case1 => cases hw
  | case2 run hrun =>
    rw [List.mem_singleton] at hw
    subst hw
    simpa using hrun
  | case3 run c cs hc ih => exact ih hw
  | case4 run c cs hc hrun ih => exact ih hw
  | case5 run c cs hc hrun ih =>
    rcases List.mem_cons.1 hw with rfl | hw
    · simpa using hrun
    · exact ih hw

theorem eq_of_forall_reverse {q : Char → Bool} {run run' : List Char}
    (hq : ∀ c ∈ run.reverse, q c = true) (h : run = run' ∨ ∃ c ∈ run, q c = false) :
    run = run' := by
  refine h.resolve_right ?_
  rintro ⟨c, hc, hcq⟩
  rw [hq c (List.mem_reverse.2 hc)] at hcq
  cases hcq

theorem mem_runsFrom_cons_of_not {p : Char → Bool} {w run cs : List Char} {c : Char}
    (hc : ¬ p c = true) (hw : w ∈ runsFrom p [] cs) : w ∈ runsFrom p run (c :: cs) := by
  rw [runsFrom, if_neg hc]
  split
  · exact hw
  · exact List.mem_cons_of_mem _ hw

/-- A run of a class all of whose characters are of a smaller class is a run of that class. The two
runs being read are the same until a character tells the classes apart. -/
theorem mem_runsFrom_of_forall {p q : Char → Bool} (hqp : ∀ c, q c = true → p c = true)
    {w run run' cs : List Char} (hq : ∀ c ∈ w, q c = true)
    (hrun : run = run' ∨ ∃ c ∈ run, q c = false) (hw : w ∈ runsFrom p run cs) :
    w ∈ runsFrom q run' cs := by
  induction cs generalizing run run' with
  | nil =>
    rw [runsFrom] at hw
    split at hw
    · cases hw
    · next hne =>
      rw [List.mem_singleton] at hw
      subst hw
      rw [← eq_of_forall_reverse hq hrun, runsFrom, if_neg hne, List.mem_singleton]
  | cons c cs ih =>
    rw [runsFrom] at hw
    split at hw
    · cases hc : q c with
      | true =>
        rw [runsFrom, if_pos hc]
        refine ih ?_ hw
        rcases hrun with rfl | ⟨x, hx, hxq⟩
        · exact .inl rfl
        · exact .inr ⟨x, List.mem_cons_of_mem _ hx, hxq⟩
      | false =>
        -- From here on the run of the wider class is not a run of the smaller one.
        exact mem_runsFrom_cons_of_not (by simp [hc]) (ih (.inr ⟨c, List.mem_cons_self, hc⟩) hw)
    · next hp =>
      have hc : ¬ q c = true := fun h => hp (hqp c h)
      split at hw
      · exact mem_runsFrom_cons_of_not hc (ih (.inl rfl) hw)
      · next hne =>
        rcases List.mem_cons.1 hw with rfl | hw
        · rw [← eq_of_forall_reverse hq hrun, runsFrom, if_neg hc, if_neg hne]
          exact List.mem_cons_self
        · exact mem_runsFrom_cons_of_not hc (ih (.inl rfl) hw)

/-- A word has no blank in it. -/
theorem not_isBlank_of_mem_words {s w : String} (hw : w ∈ words s) :
    ∀ c ∈ w.toList, isBlank c = false := by
  obtain ⟨cs, hcs, rfl⟩ := List.mem_map.1 hw
  intro c hc
  rw [String.toList_ofList] at hc
  simpa using forall_of_mem_runsFrom (by simp) hcs c hc

theorem ne_empty_of_mem_runs {p : Char → Bool} {s w : String} (hw : w ∈ runs p s) : w ≠ "" := by
  obtain ⟨cs, hcs, rfl⟩ := List.mem_map.1 hw
  intro h
  exact ne_nil_of_mem_runsFrom hcs (String.ofList_eq_empty_iff.1 h)

/-- A run of a class that blanks do not belong to is a word if it has no blank. -/
theorem mem_words_of_mem_runs {p : Char → Bool} (hp : ∀ c, isBlank c = false → p c = true)
    {s w : String} (hw : w ∈ runs p s) (hblank : ∀ c ∈ w.toList, isBlank c = false) :
    w ∈ words s := by
  obtain ⟨cs, hcs, rfl⟩ := List.mem_map.1 hw
  rw [String.toList_ofList] at hblank
  refine List.mem_map.2 ⟨cs, ?_, rfl⟩
  exact mem_runsFrom_of_forall (fun c hc => hp c (by simpa using hc))
    (fun c hc => by simpa using hblank c hc) (.inl rfl) hcs

theorem mem_of_mem_strip {p : Char → Bool} {cs : List Char} {c : Char} (h : c ∈ strip p cs) :
    c ∈ cs := by
  rw [strip, dropEnd, List.mem_reverse] at h
  have hmid := (List.dropWhile_sublist p).subset h
  exact (List.dropWhile_sublist p).subset (List.mem_reverse.1 hmid)

theorem dropEnd_cons {p : Char → Bool} {c : Char} (h : p c = false) (cs : List Char) :
    dropEnd p (c :: cs) = c :: dropEnd p cs := by
  rw [dropEnd, dropEnd, List.reverse_cons, List.dropWhile_append]
  split
  · next hempty => simp [List.isEmpty_iff.1 hempty, h]
  · simp

/-- Nothing is left to strip at the ends of a stripped text. -/
theorem strip_strip (p : Char → Bool) (cs : List Char) : strip p (strip p cs) = strip p cs := by
  rw [strip, strip]
  cases hrest : cs.dropWhile p with
  | nil => rfl
  | cons c rest =>
    have hc : p c = false := by
      have hnot := List.head?_dropWhile_not p cs
      rwa [hrest] at hnot
    have hend : dropEnd p (dropEnd p rest) = dropEnd p rest := List.rdropWhile_idempotent p rest
    rw [dropEnd_cons hc, List.dropWhile_cons_of_neg (by simp [hc]), dropEnd_cons hc, hend]

/-- Nothing is stripped just when the ends are not of the class. -/
theorem strip_eq_self_iff {p : Char → Bool} {cs : List Char} :
    strip p cs = cs ↔ (∀ c ∈ cs.head?, p c = false) ∧ ∀ c ∈ cs.getLast?, p c = false := by
  cases cs with
  | nil => simp
  | cons c cs =>
    rw [strip, List.dropWhile_cons]
    split
    · next hc =>
      -- What is left is shorter than the text.
      have hlength : (dropEnd p (cs.dropWhile p)).length ≤ cs.length := by
        rw [dropEnd, List.length_reverse]
        refine Nat.le_trans (List.dropWhile_sublist p).length_le ?_
        rw [List.length_reverse]
        exact (List.dropWhile_sublist p).length_le
      constructor
      · intro h
        rw [h, List.length_cons] at hlength
        omega
      · intro h
        simp [hc] at h
    · next hc =>
      have hends : dropEnd p (c :: cs) = c :: cs ↔ ∀ d ∈ (c :: cs).getLast?, p d = false := by
        rw [dropEnd, List.reverse_eq_iff, List.dropWhile_eq_self_iff, ← List.head?_reverse]
        cases hrev : (c :: cs).reverse with
        | nil => simp at hrev
        | cons d ds => simp
      rw [hends]
      simp [hc]

/-- What belongs to the class at the ends is stripped. -/
theorem strip_append {p : Char → Bool} {before after : List Char}
    (hbefore : ∀ c ∈ before, p c = true) (hafter : ∀ c ∈ after, p c = true) (cs : List Char) :
    strip p (before ++ cs ++ after) = strip p cs := by
  have hend : ∀ ds, dropEnd p (ds ++ after) = dropEnd p ds := fun ds => by
    rw [dropEnd, dropEnd, List.reverse_append,
      List.dropWhile_append_of_pos fun c hc => hafter c (List.mem_reverse.1 hc)]
  rw [strip, strip, List.append_assoc, List.dropWhile_append_of_pos hbefore,
    List.dropWhile_append]
  split
  · next hempty =>
    rw [List.isEmpty_iff.1 hempty, List.dropWhile_eq_nil_iff.2 hafter]
  · exact hend _

theorem any_isBlank_unquote {s : String} (h : s.toList.any isBlank = false) :
    (unquote s).toList.any isBlank = false := by
  rw [List.any_eq_false] at h ⊢
  intro c hc
  rw [unquote, trimBy, String.toList_ofList] at hc
  exact h c (mem_of_mem_strip hc)

/-! ## Letter case -/

/-- Every run of capitals is mapped outside the blanks. -/
theorem capitalRuns_apart :
    ∀ r ∈ capitalRuns, ∀ b ∈ blanks, r.2.1 - r.1 + r.2.2.2 < b.1 ∨ b.2 < r.2.2.2 := by
  decide +kernel

/-- No blank is a capital. -/
theorem shiftBy_blanks :
    ∀ b ∈ blanks, ∀ k < b.2 - b.1 + 1, shiftBy capitalRuns (b.1 + k) = none := by
  decide +kernel

theorem isBlank_toLower_ascii :
    ∀ n < 0x80, isBlank (Char.ofNat n).toLower = isBlank (Char.ofNat n) := by
  decide +kernel

theorem shiftBy_of_isBlank {c : Char} (h : isBlank c = true) :
    shiftBy capitalRuns c.toNat = none := by
  obtain ⟨b, hb, hlo, hhi⟩ := Ranges.has_iff.1 h
  have hnone := shiftBy_blanks b hb (c.toNat - b.1) (by omega)
  rwa [Nat.add_sub_cancel' hlo] at hnone

/-- A number outside the blanks that is no character at all stands for the null character. -/
theorem isBlank_ofNat {n : Nat} (h : ∀ b ∈ blanks, n < b.1 ∨ b.2 < n) :
    isBlank (Char.ofNat n) = false := by
  by_cases hvalid : n.isValidChar
  · have haux : Char.ofNat n = Char.ofNatAux n hvalid := dif_pos hvalid
    rw [haux, Bool.eq_false_iff]
    intro hblank
    obtain ⟨b, hb, hlo, hhi⟩ := Ranges.has_iff.1 hblank
    have hn : b.1 ≤ n ∧ n ≤ b.2 := ⟨hlo, hhi⟩
    have := h b hb
    omega
  · have hnull : Char.ofNat n = '\x00' := dif_neg hvalid
    rw [hnull]
    decide

theorem isBlank_of_shiftBy {n m : Nat} (h : shiftBy capitalRuns n = some m) :
    isBlank (Char.ofNat m) = false := by
  obtain ⟨⟨lo, hi, step, first⟩, hr, hm⟩ := List.exists_of_findSome?_eq_some h
  simp only [Option.ite_none_right_eq_some, Option.some.injEq] at hm
  obtain ⟨⟨hlo, hhi, -⟩, rfl⟩ := hm
  refine isBlank_ofNat fun b hb => ?_
  have hapart := capitalRuns_apart _ hr b hb
  simp only at hapart
  omega

theorem any_isBlank_lowerChar (c : Char) : (lowerChar c).any isBlank = isBlank c := by
  rw [lowerChar]
  split
  · next hascii =>
    have h := isBlank_toLower_ascii c.toNat hascii
    rw [Char.ofNat_toNat] at h
    simpa using h
  split
  · next hc =>
    have h : c = Char.ofNat 0x130 := by rw [← hc, Char.ofNat_toNat]
    rw [h]
    decide
  split
  · next m hm =>
    have hc : isBlank c = false := by
      rw [Bool.eq_false_iff]
      intro h
      rw [shiftBy_of_isBlank h] at hm
      cases hm
    rw [hc]
    simpa using isBlank_of_shiftBy hm
  · simp

/-- A text has a character of a class after lower casing just when it had one before, if this is so
for every character and for the sigmas. -/
theorem any_lowerAfter {p : Char → Bool} (hchar : ∀ c, (lowerChar c).any p = p c)
    (hfinal : p (Char.ofNat 0x3C2) = p (Char.ofNat 0x3A3))
    (hsmall : p (Char.ofNat 0x3C3) = p (Char.ofNat 0x3A3)) (before cs : List Char) :
    (lowerAfter before cs).any p = cs.any p := by
  induction cs generalizing before with
  | nil => rfl
  | cons c cs ih =>
    rw [lowerAfter, List.any_cons]
    split
    · next hc =>
      have h : c = Char.ofNat 0x3A3 := by rw [← hc, Char.ofNat_toNat]
      rw [List.any_cons, ih, h]
      congr 1
      split
      · exact hfinal
      · exact hsmall
    · rw [List.any_append, ih, hchar]

theorem lowerChar_ne_nil (c : Char) : lowerChar c ≠ [] := by
  unfold lowerChar
  split
  · simp
  split
  · simp
  split <;> simp

theorem lowerCase_ne_empty {s : String} (h : s ≠ "") : lowerCase s ≠ "" := by
  intro hempty
  have hnil := String.ofList_eq_empty_iff.1 hempty
  cases hs : s.toList with
  | nil => exact h (String.toList_eq_nil_iff.1 hs)
  | cons c cs =>
    rw [hs, lowerAfter] at hnil
    split at hnil
    · cases hnil
    · exact lowerChar_ne_nil c (List.append_eq_nil_iff.1 hnil).1

/-- Lower casing neither makes nor removes blanks. -/
theorem any_isBlank_lowerCase (s : String) :
    (lowerCase s).toList.any isBlank = s.toList.any isBlank := by
  rw [lowerCase, String.toList_ofList,
    any_lowerAfter any_isBlank_lowerChar (by decide) (by decide)]

end StyleSieve.Text
