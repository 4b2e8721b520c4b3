import StyleSieve.Pattern.Read
import StyleSieve.Usage.Nodes
import StyleSieve.Usage.WordSet

/-!
# Indices

An index answers whether a chain may be in use. It looks at each compound of the chain on its own
and errs on the side of keeping; how compounds are combined never matters.
-/

namespace StyleSieve.Usage

open Selector

/-- Patterns for names that are always in use. -/
abbrev PatternSet := List Pattern

/-- A pattern that cannot be read. -/
structure PatternError where
  text : String
deriving Repr, DecidableEq

namespace PatternSet

/-- The patterns of some texts, or the first text that is none. -/
def ofTexts : List String → Except PatternError PatternSet
  | [] => .ok []
  | t :: ts =>
    match Pattern.parse t with
    | none => .error ⟨t⟩
    | some p => (p :: ·) <$> ofTexts ts

/-- Some pattern is found in the name. -/
def accepts (ps : PatternSet) (name : String) : Bool := ps.any (·.finds name)

/-- Every compound has a class with a pattern in it. -/
def includesClasses (ps : PatternSet) (chain : Chain) : Bool :=
  chain.all fun c => c.classes.toList.any ps.accepts

/-- Every compound has an id with a pattern in it. -/
def includesIds (ps : PatternSet) (chain : Chain) : Bool := chain.all fun c => c.id.any ps.accepts

end PatternSet

inductive Index where
  /-- Elements of documents. -/
  | markup (nodes : Nodes)
  | words (set : WordSet)
  | classPatterns (patterns : PatternSet)
  | idPatterns (patterns : PatternSet)
  /-- Compounds that are always kept. -/
  | preset (nodes : Nodes)
  /-- Whatever some member includes. -/
  | union (members : List Index)

namespace Index

mutual

/-- The chain may be in use. -/
def includes : Index → Chain → Bool
  | markup nodes, chain => nodes.includes chain
  | preset nodes, chain => nodes.includes chain
  | words set, chain => set.includes chain
  | classPatterns ps, chain => ps.includesClasses chain
  | idPatterns ps, chain => ps.includesIds chain
  | union members, chain => someIncludes members chain

/-- Some index includes the chain. -/
def someIncludes : List Index → Chain → Bool
  | [], _ => false
  | i :: is, chain => i.includes chain || someIncludes is chain

end

theorem someIncludes_eq_any (is : List Index) (chain : Chain) :
    someIncludes is chain = is.any (·.includes chain) := by
  induction is with
  | nil => simp [someIncludes]
  | cons i is ih => simp [someIncludes, ih]

@[simp] theorem includes_union (is : List Index) (chain : Chain) :
    (union is).includes chain = is.any (·.includes chain) := by
  rw [includes, someIncludes_eq_any]

/-- The name under which an index is shown. -/
def name : Index → String
  | markup _ => "html"
  | words _ => "words"
  | classPatterns _ => "class patterns"
  | idPatterns _ => "id patterns"
  | preset _ => "preset"
  | union _ => "union"

end Index

end StyleSieve.Usage
