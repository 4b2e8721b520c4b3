import StyleSieve.Files.FileTree

/-!
# Writing to a file

A text written to a file changes what is at one place and nowhere else, and no path leads elsewhere
than before. So a read sees the new text just if its path leads to the same place (`read?_write?`).
-/

namespace StyleSieve.Files.FileTree

theorem find?_set (t : FileTree) (place q : Place) (e : Entry) :
    (t.set place e).entries.find? (·.1 == q) =
      if q = place then some (place, e) else t.entries.find? (·.1 == q) := by
  by_cases hlisted : t.entries.any (·.1 == place)
  · have hplaces : ((fun x : Place × Entry => x.1 == q) ∘
        fun x => if x.1 == place then (x.1, e) else x) = fun x => x.1 == q := by
      funext x
      simp only [Function.comp_apply]
      split <;> rfl
    rw [set, if_pos hlisted, List.find?_map, hplaces]
    split
    · next hq =>
      subst hq
      obtain ⟨x, hx⟩ := Option.isSome_iff_exists.1
        (List.find?_isSome.2 (List.any_eq_true.1 hlisted))
      have hplace : x.1 = q := by simpa using List.find?_some hx
      simp [hx, hplace]
    · next hq =>
      cases hx : t.entries.find? (·.1 == q) with
      | none => rfl
      | some x =>
        have hplace : x.1 ≠ place := by
          have hx' : x.1 = q := by simpa using List.find?_some hx
          rwa [hx']
        simp [hplace]
  · rw [set, if_neg hlisted, List.find?_append]
    split
    · next hq =>
      subst hq
      have hnone : t.entries.find? (·.1 == q) = none := by
        rw [List.find?_eq_none]
        exact fun x hx hplace => hlisted (List.any_eq_true.2 ⟨x, hx, hplace⟩)
      simp [hnone]
    · next hq => simp [Ne.symm hq]

/-- What lies below a place: the new entry is one more. -/
theorem any_isPrefixOf_set (t : FileTree) (place q : Place) (e : Entry) :
    ((t.set place e).entries.any fun x => q.isPrefixOf x.1) =
      ((t.entries.any fun x => q.isPrefixOf x.1) || q.isPrefixOf place) := by
  by_cases hlisted : t.entries.any (·.1 == place)
  · rw [set, if_pos hlisted, List.any_map]
    have hplaces : ((fun x : Place × Entry => q.isPrefixOf x.1) ∘
        fun x => if x.1 == place then (x.1, e) else x) = fun x => q.isPrefixOf x.1 := by
      funext x
      simp only [Function.comp_apply]
      split <;> rfl
    rw [hplaces]
    obtain ⟨x, hx, hplace⟩ := List.any_eq_true.1 hlisted
    have hx' : x.1 = place := by simpa using hplace
    cases hprefix : q.isPrefixOf place with
    | false => rw [Bool.or_false]
    | true =>
      rw [Bool.or_true]
      exact List.any_eq_true.2 ⟨x, hx, hx' ▸ hprefix⟩
  · rw [set, if_neg hlisted]
    simp

theorem any_isPrefixOf_of_isDirectory {t : FileTree} {place : Place} (hne : place ≠ [])
    (h : t.isDirectory place = true) : (t.entries.any fun x => place.isPrefixOf x.1) = true := by
  rw [isDirectory, decide_eq_true_iff, at?, if_neg (by simpa using hne)] at h
  split at h
  · next d e hfound =>
    have hplace : d = place := by simpa using List.find?_some hfound
    exact List.any_eq_true.2 ⟨_, List.mem_of_find?_eq_some hfound, by simp [hplace]⟩
  · split at h
    · next hbelow => exact hbelow
    · simp at h

/-- What lies above a place lies above or at its directory. -/
theorem prefix_dropLast {place q : Place} (h : q <+: place) (hne : q ≠ place) :
    q <+: place.dropLast := by
  obtain ⟨rest, rfl⟩ := h
  have hrest : rest ≠ [] := by
    rintro rfl
    simp at hne
  rw [List.dropLast_append_of_ne_nil hrest]
  exact List.prefix_append ..

/-- A new text in a directory that is there changes what is at its own place only. -/
theorem at?_set {t : FileTree} {place : Place} {e : Entry} (hne : place ≠ [])
    (hparent : t.isDirectory place.dropLast = true) (q : Place) :
    (t.set place e).at? q = if q = place then some e else t.at? q := by
  unfold at?
  rw [find?_set, any_isPrefixOf_set]
  split
  · next hempty =>
    obtain rfl : q = [] := by simpa using hempty
    rw [if_neg hne.symm]
  · next hempty =>
    by_cases hq : q = place
    · rw [if_pos hq, if_pos hq]
    · rw [if_neg hq, if_neg hq]
      have hbelow : q.isPrefixOf place = true →
          (t.entries.any fun x => q.isPrefixOf x.1) = true := by
        intro hprefix
        have habove := prefix_dropLast (List.isPrefixOf_iff_prefix.1 hprefix) hq
        have hparent' : place.dropLast ≠ [] := by
          intro hnil
          rw [hnil] at habove
          exact hempty (by simp [List.prefix_nil.1 habove])
        obtain ⟨x, hx, hbelow⟩ :=
          List.any_eq_true.1 (any_isPrefixOf_of_isDirectory hparent' hparent)
        exact List.any_eq_true.2 ⟨x, hx, List.isPrefixOf_iff_prefix.2
          (habove.trans (List.isPrefixOf_iff_prefix.1 hbelow))⟩
      cases hprefix : q.isPrefixOf place with
      | false => rw [Bool.or_false]
      | true => rw [hbelow hprefix, Bool.true_or]

/-- Paths are followed over directories only. -/
theorem follow_congr {t t' : FileTree} (h : ∀ q, t'.isDirectory q = t.isDirectory q)
    (parts : List String) (place : Place) : t'.follow place parts = t.follow place parts := by
  induction parts generalizing place with
  | nil => rfl
  | cons part rest ih => simp only [follow, h, ih]

theorem locate_congr {t t' : FileTree} (h : ∀ q, t'.isDirectory q = t.isDirectory q)
    (path : String) : t'.locate path = t.locate path := by
  simp only [locate, follow_congr h, h]

section

variable {t t' : FileTree} {path : String} {content : String}

theorem exists_of_write? (h : t.write? path content = some t') : ∃ place,
    t.locate path = some place ∧ t.isDirectory place = false ∧
      t.isDirectory place.dropLast = true ∧ t' = t.set place (.text content) := by
  unfold write? at h
  split at h
  · simp at h
  · next place hplace =>
    split at h
    · simp at h
    · next hwritable =>
      simp only [Bool.or_eq_true, Bool.not_eq_true', not_or, Bool.not_eq_true,
        Bool.not_eq_false] at hwritable
      exact ⟨place, hplace, hwritable.1, hwritable.2, (Option.some.inj h).symm⟩

/-- A text that is written stands at the place of its path, and all directories stay. -/
theorem at?_write? (h : t.write? path content = some t') : ∃ place,
    t.locate path = some place ∧ (∀ q, t'.isDirectory q = t.isDirectory q) ∧
      ∀ q, t'.at? q = if q = place then some (.text content) else t.at? q := by
  obtain ⟨place, hplace, hfile, hparent, rfl⟩ := exists_of_write? h
  have hne : place ≠ [] := by
    rintro rfl
    simp [isDirectory, at?] at hfile
  refine ⟨place, hplace, fun q => ?_, at?_set hne hparent⟩
  rw [isDirectory, at?_set hne hparent]
  split
  · next hq => simp [hq, hfile]
  · rfl

theorem locate_write? (h : t.write? path content = some t') (q : String) :
    t'.locate q = t.locate q := by
  obtain ⟨place, -, hdirectories, -⟩ := at?_write? h
  exact locate_congr hdirectories q

/-- After a text has been written, a path that leads to it reads it, and all others read what they
read before. -/
theorem read?_write? (h : t.write? path content = some t') (q : String) :
    t'.read? q = if t.locate q = t.locate path then some content else t.read? q := by
  obtain ⟨place, hplace, -, hat⟩ := at?_write? h
  rw [read?, find?, locate_write? h, hplace]
  cases hq : t.locate q with
  | none => simp [read?, find?, hq]
  | some q' =>
    rw [Option.bind_some, hat]
    by_cases hsame : q' = place
    · simp [hsame]
    · simp [hsame, read?, find?, hq]

/-- A file that has been written may be written again. -/
theorem exists_write?_again (h : t.write? path content = some t') (text : String) :
    ∃ t'', t'.write? path text = some t'' := by
  obtain ⟨place, hplace, hdirectories, -⟩ := at?_write? h
  obtain ⟨place', hplace', hfile, hparent, -⟩ := exists_of_write? h
  obtain rfl : place = place' := Option.some.inj (hplace.symm.trans hplace')
  refine ⟨t'.set place (.text text), ?_⟩
  rw [write?, locate_write? h, hplace]
  simp [hdirectories, hfile, hparent]

end

end StyleSieve.Files.FileTree
