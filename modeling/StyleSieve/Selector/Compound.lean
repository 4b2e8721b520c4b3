import StyleSieve.Text.NameSet

/-!
# Compounds and chains

A compound is what a selector asks of one element, or what an element of a document offers: a tag,
an id, classes and attribute names. A chain is the list of compounds of one selector; how they are
combined is not kept.
-/

namespace StyleSieve.Selector

open Text

/-- A selector without combinators, or an element. All names are in lower case. -/
structure Compound where
  tag : Option String
  id : Option String
  classes : NameSet
  attributes : NameSet
  /-- Names of pseudo-classes; they never decide a match. -/
  pseudoClasses : List String
  pseudoElements : List String
deriving DecidableEq

namespace Compound

/-- The compound that asks for nothing. -/
def universal : Compound := ⟨none, none, ∅, ∅, [], []⟩

instance : Inhabited Compound := ⟨universal⟩

def ofTag (name : String) : Compound := { universal with tag := some name }

def isUniversal (c : Compound) : Bool :=
  c.tag.isNone && c.id.isNone && c.classes.isEmpty && c.attributes.isEmpty
    && c.pseudoClasses.isEmpty && c.pseudoElements.isEmpty

/-- A name asked for, if any, is the name offered. -/
def asks (wanted offered : Option String) : Bool := wanted.isNone || wanted == offered

/-- An element offers all that the compound asks for. -/
def accepts (c element : Compound) : Bool :=
  asks c.tag element.tag && asks c.id element.id
    && c.classes.subset element.classes && c.attributes.subset element.attributes

theorem asks_refl (o : Option String) : asks o o = true := by
  cases o <;> simp [asks]

theorem accepts_refl (c : Compound) : c.accepts c = true := by
  simp [accepts, asks_refl, NameSet.subset_refl]

@[simp] theorem universal_accepts (e : Compound) : universal.accepts e = true := by
  simp only [accepts, universal, asks, Option.isNone_none, Bool.true_or, Bool.true_and,
    Bool.and_eq_true]
  constructor <;> exact NameSet.subset_iff.2 fun a ha => absurd ha (NameSet.not_mem_empty a)

end Compound

/-- The compounds of a selector in order. -/
abbrev Chain := List Compound

end StyleSieve.Selector
