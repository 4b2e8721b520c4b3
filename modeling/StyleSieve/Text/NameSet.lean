/-!
# Sets of names

A finite set of texts, held as its members in ascending order. The order is part of the type, so two
sets with the same members are equal.
-/

namespace StyleSieve.Text

/-- A set of names in the order of their code points. -/
structure NameSet where
  names : List String
  ascending : names.Pairwise (· < ·)
deriving DecidableEq

namespace NameSet

/-- Puts a name into its place among ascending names. -/
def place (a : String) : List String → List String
  | [] => [a]
  | b :: bs => if a < b then a :: b :: bs else if a = b then b :: bs else b :: place a bs

theorem mem_place {a x : String} {l : List String} : x ∈ place a l ↔ x = a ∨ x ∈ l := by
  induction l with
  | nil => simp [place]
  | cons b bs ih =>
    rw [place]
    split
    · simp
    · split
      · next h => simp [h]
      · simp only [List.mem_cons, ih]
        exact or_left_comm

theorem lt_of_not_lt_of_ne {a b : String} (h : ¬ a < b) (hne : a ≠ b) : b < a :=
  Decidable.byContradiction fun h' =>
    hne (String.le_antisymm (String.not_lt.mp h') (String.not_lt.mp h))

theorem pairwise_place {a : String} {l : List String} (h : l.Pairwise (· < ·)) :
    (place a l).Pairwise (· < ·) := by
  induction l with
  | nil => simp [place]
  | cons b bs ih =>
    obtain ⟨hb, hbs⟩ := List.pairwise_cons.1 h
    rw [place]
    split
    · next hab =>
      refine List.pairwise_cons.2 ⟨?_, h⟩
      intro x hx
      rcases List.mem_cons.1 hx with rfl | hx
      · exact hab
      · exact String.lt_trans hab (hb x hx)
    · next hab =>
      split
      · exact h
      · next hne =>
        refine List.pairwise_cons.2 ⟨?_, ih hbs⟩
        intro x hx
        rcases mem_place.1 hx with rfl | hx
        · exact lt_of_not_lt_of_ne hab hne
        · exact hb x hx

def empty : NameSet := ⟨[], List.Pairwise.nil⟩

instance : EmptyCollection NameSet := ⟨empty⟩

instance : Inhabited NameSet := ⟨empty⟩

def insert (s : NameSet) (a : String) : NameSet := ⟨place a s.names, pairwise_place s.ascending⟩

instance : Membership String NameSet := ⟨fun s a => a ∈ s.names⟩

theorem mem_def {s : NameSet} {a : String} : a ∈ s ↔ a ∈ s.names := Iff.rfl

instance (s : NameSet) (a : String) : Decidable (a ∈ s) := inferInstanceAs (Decidable (a ∈ s.names))

theorem eq_of_mem_iff {l l' : List String} (h : l.Pairwise (· < ·)) (h' : l'.Pairwise (· < ·))
    (hmem : ∀ x, x ∈ l ↔ x ∈ l') : l = l' := by
  induction l generalizing l' with
  | nil =>
    cases l' with
    | nil => rfl
    | cons b l' => simpa using (hmem b).2 List.mem_cons_self
  | cons a l ih =>
    cases l' with
    | nil => simpa using (hmem a).1 List.mem_cons_self
    | cons b l' =>
      obtain ⟨ha, hl⟩ := List.pairwise_cons.1 h
      obtain ⟨hb, hl'⟩ := List.pairwise_cons.1 h'
      have hab : a = b := by
        rcases List.mem_cons.1 ((hmem a).1 List.mem_cons_self) with hab | hab
        · exact hab
        · rcases List.mem_cons.1 ((hmem b).2 List.mem_cons_self) with hba | hba
          · exact hba.symm
          · exact absurd (String.lt_trans (hb a hab) (ha b hba)) (String.lt_irrefl b)
      subst hab
      congr 1
      refine ih hl hl' fun x => ?_
      constructor
      · intro hx
        rcases List.mem_cons.1 ((hmem x).1 (List.mem_cons_of_mem a hx)) with rfl | hx'
        · exact absurd (ha x hx) (String.lt_irrefl x)
        · exact hx'
      · intro hx
        rcases List.mem_cons.1 ((hmem x).2 (List.mem_cons_of_mem a hx)) with rfl | hx'
        · exact absurd (hb x hx) (String.lt_irrefl x)
        · exact hx'

/-- Sets with the same members are equal. -/
theorem ext {s t : NameSet} (h : ∀ a, a ∈ s ↔ a ∈ t) : s = t := by
  rcases s with ⟨names, ascending⟩
  rcases t with ⟨names', ascending'⟩
  obtain rfl : names = names' := eq_of_mem_iff ascending ascending' h
  rfl

@[simp] theorem not_mem_empty (a : String) : a ∉ (∅ : NameSet) := by
  simp [mem_def, EmptyCollection.emptyCollection, empty]

@[simp] theorem mem_insert {s : NameSet} {a x : String} : x ∈ s.insert a ↔ x = a ∨ x ∈ s :=
  mem_place

def ofList (l : List String) : NameSet := l.foldl insert ∅

theorem mem_foldl_insert {l : List String} {s : NameSet} {x : String} :
    x ∈ l.foldl insert s ↔ x ∈ s ∨ x ∈ l := by
  induction l generalizing s with
  | nil => simp
  | cons a l ih =>
    rw [List.foldl_cons, ih, mem_insert, List.mem_cons]
    constructor
    · rintro ((h | h) | h)
      · exact Or.inr (Or.inl h)
      · exact Or.inl h
      · exact Or.inr (Or.inr h)
    · rintro (h | h | h)
      · exact Or.inl (Or.inr h)
      · exact Or.inl (Or.inl h)
      · exact Or.inr h

@[simp] theorem mem_ofList {l : List String} {x : String} : x ∈ ofList l ↔ x ∈ l := by
  simp [ofList, mem_foldl_insert]

/-- The names of two sets. -/
def union (s t : NameSet) : NameSet := t.names.foldl insert s

@[simp] theorem mem_union {s t : NameSet} {x : String} : x ∈ s.union t ↔ x ∈ s ∨ x ∈ t :=
  mem_foldl_insert

/-- The names in ascending order. -/
def toList (s : NameSet) : List String := s.names

@[simp] theorem mem_toList {s : NameSet} {a : String} : a ∈ s.toList ↔ a ∈ s := Iff.rfl

def isEmpty (s : NameSet) : Bool := s.names.isEmpty

/-- Every name of the first set is in the second. -/
def subset (s t : NameSet) : Bool := s.names.all fun a => a ∈ t

theorem subset_iff {s t : NameSet} : s.subset t = true ↔ ∀ a ∈ s, a ∈ t := by
  simp [subset, mem_def]

theorem subset_refl (s : NameSet) : s.subset s = true := subset_iff.2 fun _ h => h

end NameSet

end StyleSieve.Text
