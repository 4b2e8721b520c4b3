import StyleSieve.Usage.References

/-!
# What a corpus uses

The nodes, words and references gathered from files, and the names that are always kept. Together
they make up the index by which stylesheets are purged.
-/

namespace StyleSieve.Usage

/-- What has been gathered from files. -/
structure Corpus where
  nodes : Nodes
  words : WordSet
  references : References

def Corpus.empty : Corpus := ⟨[], ∅, .empty⟩

/-- What was gathered for two corpora. -/
def Corpus.append (c d : Corpus) : Corpus :=
  ⟨c.nodes ++ d.nodes, c.words.union d.words, c.references ++ d.references⟩

instance : Append Corpus := ⟨Corpus.append⟩

inductive OverrideError where
  | preset (error : PresetError)
  | pattern (error : PatternError)
deriving Repr, DecidableEq

/-- What is kept whether the corpus uses it or not. -/
structure Overrides where
  preset : Nodes
  classes : PatternSet
  ids : PatternSet

/-- Overrides from selectors and from patterns for classes and ids; the selectors are added to those
that every document uses. -/
def Overrides.compile (selectors classes ids : List String) : Except OverrideError Overrides :=
  match Nodes.ofSelectors (defaultPreset ++ selectors) with
  | .error e => .error (.preset e)
  | .ok preset =>
    match PatternSet.ofTexts classes with
    | .error e => .error (.pattern e)
    | .ok classes =>
      match PatternSet.ofTexts ids with
      | .error e => .error (.pattern e)
      | .ok ids => .ok ⟨preset, classes, ids⟩

/-- The indices of a corpus. Words and patterns are left out where there are none. -/
def Corpus.members (c : Corpus) (o : Overrides) : List Index :=
  [.markup c.nodes] ++ (if c.words.isEmpty then [] else [.words c.words])
    ++ (if o.classes.isEmpty then [] else [.classPatterns o.classes])
    ++ (if o.ids.isEmpty then [] else [.idPatterns o.ids])
    ++ [.preset o.preset]

def Corpus.index (c : Corpus) (o : Overrides) : Index := .union (c.members o)

/-- The members of an index that include a chain. -/
def Index.including (chain : Selector.Chain) : Index → List Index
  | .union members => members.filter (·.includes chain)
  | i => if i.includes chain then [i] else []

end StyleSieve.Usage
