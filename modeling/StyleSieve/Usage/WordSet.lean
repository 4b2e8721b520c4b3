import StyleSieve.Selector.Compound
import StyleSieve.Text.Blank
import StyleSieve.Text.Category
import StyleSieve.Text.LowerCase

/-!
# Words in use

The words of free text, in lower case. A chain is included if every name in it is such a word.
-/

namespace StyleSieve.Usage

open Text Selector

/-- Letters, numbers and hyphens make up words. -/
def inWord (c : Char) : Bool := c == '-' || isLetter c || isNumeric c

/-- A set of words in lower case. -/
abbrev WordSet := NameSet

namespace WordSet

/-- Words in any letter case, put into a set. -/
def ofWords (set : WordSet) (words : List String) : WordSet :=
  words.foldl (fun s w => s.insert (lowerCase w)) set

/-- The words of a text. -/
def ofText (set : WordSet) (text : String) : WordSet := set.ofWords (runs inWord text)

/-- The words of several texts. -/
def ofTexts (texts : List String) : WordSet := texts.foldl ofText ∅

/-- A word is in the set, in whatever letter case it is given. -/
def contains (set : WordSet) (word : String) : Bool := lowerCase word ∈ set

/-- Every name that a compound asks for is a word. -/
def covers (set : WordSet) (c : Compound) : Bool :=
  c.tag.all set.contains && c.id.all set.contains && c.classes.toList.all set.contains
    && c.attributes.toList.all set.contains

def includes (set : WordSet) (chain : Chain) : Bool := chain.all set.covers

theorem mem_ofWords {set : WordSet} {words : List String} {w : String} :
    w ∈ set.ofWords words ↔ w ∈ set ∨ ∃ v ∈ words, lowerCase v = w := by
  induction words generalizing set with
  | nil => simp [ofWords]
  | cons v vs ih =>
    have : set.ofWords (v :: vs) = ofWords (set.insert (lowerCase v)) vs := rfl
    rw [this, ih, NameSet.mem_insert]
    simp only [List.mem_cons, exists_eq_or_imp]
    constructor
    · rintro ((h | h) | h)
      · exact Or.inr (Or.inl h.symm)
      · exact Or.inl h
      · exact Or.inr (Or.inr h)
    · rintro (h | h | h)
      · exact Or.inl (Or.inr h)
      · exact Or.inl (Or.inl h.symm)
      · exact Or.inr h

end WordSet

end StyleSieve.Usage
