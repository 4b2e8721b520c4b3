/-!
# Ranges of code points

A character property given by the inclusive ranges of code points that have it. Nothing here says
which standard a table comes from; each table module does.
-/

namespace StyleSieve.Text

/-- Inclusive ranges of code points, ascending. -/
abbrev Ranges := List (Nat × Nat)

/-- Some range holds the character. -/
def Ranges.has (rs : Ranges) (c : Char) : Bool :=
  rs.any fun r => r.1 ≤ c.toNat && c.toNat ≤ r.2

@[simp] theorem Ranges.has_nil (c : Char) : Ranges.has [] c = false := rfl

@[simp] theorem Ranges.has_append (rs ts : Ranges) (c : Char) :
    Ranges.has (rs ++ ts) c = (rs.has c || ts.has c) := by
  simp [Ranges.has]

theorem Ranges.has_iff {rs : Ranges} {c : Char} :
    rs.has c = true ↔ ∃ r ∈ rs, r.1 ≤ c.toNat ∧ c.toNat ≤ r.2 := by
  simp [Ranges.has]

end StyleSieve.Text
