import StyleSieve.Text.Slice

/-!
# Slices of longer texts

A slice of a text is found again where the text stands inside a longer one, as long as both ends
of it lie between characters. A text that stands in another one is the slice of it (`At`).
-/

namespace StyleSieve.Text

theorem utf8ByteSize_ofList (cs : List Char) : (String.ofList cs).utf8ByteSize = width cs := by
  induction cs with
  | nil => rfl
  | cons c cs ih => simp [String.ofList_cons, ih]

theorem utf8ByteSize_eq_width (s : String) : s.utf8ByteSize = width s.toList := by
  have h := utf8ByteSize_ofList s.toList
  rwa [String.ofList_toList] at h

theorem dropBytes_width_add (cs ds : List Char) (n : Nat) :
    dropBytes (width cs + n) (cs ++ ds) = dropBytes n ds := by
  induction cs with
  | nil => simp
  | cons c cs ih =>
    have := c.utf8Size_pos
    rw [List.cons_append, dropBytes, if_neg (by simp; omega), width_cons, Nat.add_assoc,
      Nat.add_sub_cancel_left, ih]

/-- What stands before a text moves its slices. -/
theorem slice_append_left (s t : String) (start stop : Nat) :
    slice (s ++ t) (width s.toList + start) (width s.toList + stop) = slice t start stop := by
  rw [slice, slice, String.toList_append, dropBytes_width_add, Nat.add_sub_add_left]

/-- The byte offset lies between two characters of a text, or at one of its ends. -/
def Cut (s : String) (n : Nat) : Prop := ∃ cs ds, s.toList = cs ++ ds ∧ width cs = n

/-- The characters stand in the text at a byte offset. -/
def At (s : String) (pos : Nat) (cs : List Char) : Prop :=
  ∃ before after, s.toList = before ++ cs ++ after ∧ width before = pos

section

variable {s : String} {pos : Nat} {cs ds : List Char}

theorem At.left (h : At s pos (cs ++ ds)) : At s pos cs := by
  obtain ⟨before, after, hs, hwidth⟩ := h
  exact ⟨before, ds ++ after, by rw [hs]; simp, hwidth⟩

theorem At.right (h : At s pos (cs ++ ds)) : At s (pos + width cs) ds := by
  obtain ⟨before, after, hs, hwidth⟩ := h
  exact ⟨before ++ cs, after, by rw [hs]; simp, by simp [hwidth]⟩

theorem At.slice_eq (h : At s pos cs) : slice s pos (pos + width cs) = String.ofList cs := by
  obtain ⟨before, after, hs, rfl⟩ := h
  rw [slice, hs, List.append_assoc, dropBytes_width, Nat.add_sub_cancel_left, takeBytes_width]

theorem At.start (h : At s pos cs) : Cut s pos := by
  obtain ⟨before, after, hs, hwidth⟩ := h
  exact ⟨before, cs ++ after, by rw [hs, List.append_assoc], hwidth⟩

theorem At.stop (h : At s pos cs) : Cut s (pos + width cs) := by
  obtain ⟨before, after, hs, hwidth⟩ := h
  exact ⟨before ++ cs, after, hs, by rw [width_append, hwidth]⟩

end

theorem takeBytes_zero (cs : List Char) : takeBytes 0 cs = [] := by
  cases cs <;> simp [takeBytes]

/-- What stands after a text leaves its slices as they are. -/
theorem slice_append_right {s : String} {start stop : Nat} (hstart : Cut s start)
    (hstop : Cut s stop) (t : String) : slice (s ++ t) start stop = slice s start stop := by
  obtain ⟨before, after, hs, rfl⟩ := hstart
  obtain ⟨before', after', hs', rfl⟩ := hstop
  have hdrop : dropBytes (width before) (s ++ t).toList = after ++ t.toList := by
    rw [String.toList_append, hs, List.append_assoc, dropBytes_width]
  have hdrop' : dropBytes (width before) s.toList = after := by
    rw [hs, dropBytes_width]
  rw [slice, slice, hdrop, hdrop']
  rcases List.append_eq_append_iff.1 (hs.symm.trans hs') with
    ⟨between, rfl, rfl⟩ | ⟨between, rfl, -⟩
  · rw [width_append, Nat.add_sub_cancel_left, List.append_assoc, takeBytes_width, takeBytes_width]
  · have hnone : width before' - width (before' ++ between) = 0 := by
      rw [width_append]
      omega
    rw [hnone, takeBytes_zero, takeBytes_zero]

theorem eq_nil_of_width {cs : List Char} (h : width cs = 0) : cs = [] := by
  cases cs with
  | nil => rfl
  | cons c cs =>
    have := c.utf8Size_pos
    rw [width_cons] at h
    omega

/-- A slice is the part of a text between its ends. -/
theorem exists_append_slice {s : String} {start stop : Nat} (hstart : Cut s start)
    (hstop : Cut s stop) (hle : start ≤ stop) :
    ∃ front back, s = front ++ slice s start stop ++ back ∧ front.utf8ByteSize = start ∧
      (front ++ slice s start stop).utf8ByteSize = stop := by
  obtain ⟨before, after, hs, rfl⟩ := hstart
  obtain ⟨before', after', hs', rfl⟩ := hstop
  obtain ⟨between, rfl, rfl⟩ :
      ∃ between, before' = before ++ between ∧ after = between ++ after' := by
    rcases List.append_eq_append_iff.1 (hs.symm.trans hs') with h | ⟨between, rfl, rfl⟩
    · exact h
    · rw [width_append] at hle
      obtain rfl : between = [] := eq_nil_of_width (by omega)
      exact ⟨[], by simp, rfl⟩
  have hslice : slice s (width before) (width (before ++ between)) = String.ofList between := by
    rw [slice, hs, dropBytes_width, width_append, Nat.add_sub_cancel_left, takeBytes_width]
  refine ⟨String.ofList before, String.ofList after', ?_, utf8ByteSize_ofList before, ?_⟩
  · rw [hslice]
    apply String.toList_inj.1
    simp [hs]
  · rw [hslice, ← String.ofList_append, utf8ByteSize_ofList]

end StyleSieve.Text
