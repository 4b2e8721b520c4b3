import StyleSieve.Css.Sheet

/-!
# Phrases

A stylesheet is a sequence of phrases, each with the token trees that it is written with. Which
phrases may stand where is said by rules, one for every kind of phrase. Nothing is said here of
reading: a phrase may obey the rules wherever it stands in a text.
-/

namespace StyleSieve.Css

open StyleSieve.Css.Tree (isSemicolon isColon isComma isCurly isGap endsSelector endsPrelude
  rawOf widthOf)

/-- A piece of a stylesheet. A block is told by its two brackets and the phrases between them; the
second bracket is absent where the text ends first. -/
inductive Phrase where
  /-- White space, a semicolon or one half of a comment mark. -/
  | filler (t : Tree)
  | comment (t : Tree)
  | declaration (name : Tree) (gap : List Tree) (colon : Tree) (value : List Tree)
  | statement (keyword : Tree) (prelude : List Tree) (stop : Option Tree)
  | block (keyword : Tree) (prelude : List Tree) (head : Lexeme) (body : List Phrase)
      (close : Option Lexeme)
  /-- A rule. Every selector but the last has the comma after it. -/
  | ruleset (earlier : List (List Tree × Tree)) (last : List Tree) (head : Lexeme)
      (body : List Phrase) (close : Option Lexeme)
deriving Repr

namespace Phrase

/-- The trees of selectors with their commas. -/
def listTrees (earlier : List (List Tree × Tree)) : List Tree :=
  earlier.flatMap fun s => s.1 ++ [s.2]

mutual

/-- The trees that a phrase is written with. -/
def trees : Phrase → List Tree
  | filler t => [t]
  | comment t => [t]
  | declaration name gap colon value => name :: (gap ++ colon :: value)
  | statement keyword prelude stop => keyword :: (prelude ++ stop.toList)
  | block keyword prelude head body close =>
    keyword :: (prelude ++ [.block head (treesOf body) close])
  | ruleset earlier last head body close =>
    listTrees earlier ++ (last ++ [.block head (treesOf body) close])

/-- The trees that several phrases are written with. -/
def treesOf : List Phrase → List Tree
  | [] => []
  | p :: ps => p.trees ++ treesOf ps

end

@[simp] theorem treesOf_nil : treesOf [] = [] := by rw [treesOf]

@[simp] theorem treesOf_cons (p : Phrase) (ps : List Phrase) :
    treesOf (p :: ps) = p.trees ++ treesOf ps := by rw [treesOf]

theorem treesOf_append (ps qs : List Phrase) : treesOf (ps ++ qs) = treesOf ps ++ treesOf qs := by
  induction ps with
  | nil => simp
  | cons p ps ih => simp [ih]

@[simp] theorem listTrees_nil : listTrees [] = [] := rfl

@[simp] theorem listTrees_cons (s : List Tree × Tree) (earlier : List (List Tree × Tree)) :
    listTrees (s :: earlier) = s.1 ++ s.2 :: listTrees earlier := by
  simp [listTrees]

/-! ## Rules -/

/-- No string is cut off and no address malformed. What is inside blocks does not count. -/
def Sound (ts : List Tree) : Prop := ∀ t ∈ ts, ∀ s, t.token ≠ .badString s ∧ t.token ≠ .badUrl s

/-- Trees that make up a selector: one of them at least is more than white space or a comment. -/
structure IsSelector (ts : List Tree) : Prop where
  sound : Sound ts
  unended : ∀ t ∈ ts, endsSelector t = false
  component : ∃ t ∈ ts, isGap t = false

/-- A rule may begin with the tree. Closing brackets and the marks around comments may stand inside
a selector, but not at the head of a rule. -/
def beginsRule (t : Tree) : Bool :=
  match t.token with
  | .whitespace _ => false
  | .comment _ => false
  | .semicolon => false
  | .atKeyword _ => false
  | .commentOpen => false
  | .commentClose => false
  | .closing _ => false
  | .badString _ => false
  | .badUrl _ => false
  | _ => true

/-- What may come after a phrase that has no end of its own: a value goes on to a semicolon, and a
statement without one to the end of the block. -/
def MayPrecede : Phrase → List Phrase → Prop
  | declaration .., ps => ps = [] ∨ ∃ t rest, ps = filler t :: rest ∧ isSemicolon t
  | statement _ _ none, ps => ps = []
  | _, _ => True

/-- Every phrase may precede those after it. -/
def Joined : List Phrase → Prop
  | [] => True
  | p :: ps => p.MayPrecede ps ∧ Joined ps

/-- The phrase obeys the grammar in its context. -/
inductive Derives : Context → Phrase → Prop
  | white {ctx : Context} {t : Tree} {s : String} (token : t.token = .whitespace s) :
      Derives ctx (filler t)
  | semicolon {ctx : Context} {t : Tree} (token : t.token = .semicolon) : Derives ctx (filler t)
  | mark {t : Tree} (token : t.token = .commentOpen ∨ t.token = .commentClose) :
      Derives .rules (filler t)
  | comment {ctx : Context} {t : Tree} {s : String} (token : t.token = .comment s) :
      Derives ctx (comment t)
  | declaration {name colon : Tree} {gap value : List Tree} {s : String}
      (name_token : name.token = .ident s) (gap_blank : ∀ t ∈ gap, isGap t)
      (colon_token : isColon colon) (sound : Sound value)
      (unended : ∀ t ∈ value, isSemicolon t = false) :
      Derives .declarations (declaration name gap colon value)
  | statement {ctx : Context} {keyword : Tree} {prelude : List Tree} {stop : Option Tree}
      {s : String} (keyword_token : keyword.token = .atKeyword s) (sound : Sound prelude)
      (unended : ∀ t ∈ prelude, endsPrelude t = false) (ended : ∀ t ∈ stop, isSemicolon t) :
      Derives ctx (statement keyword prelude stop)
  | block {ctx : Context} {keyword : Tree} {prelude : List Tree} {head : Lexeme}
      {body : List Phrase} {close : Option Lexeme} {s : String}
      (keyword_token : keyword.token = .atKeyword s) (sound : Sound prelude)
      (unended : ∀ t ∈ prelude, endsPrelude t = false) (curly : head.token = .opening .curly)
      (derives : ∀ p ∈ body, Derives (.ofAtRule keyword.text) p) (joined : Joined body) :
      Derives ctx (block keyword prelude head body close)
  | ruleset {earlier : List (List Tree × Tree)} {last : List Tree} {head : Lexeme}
      {body : List Phrase} {close : Option Lexeme}
      (earlier_selectors : ∀ s ∈ earlier, IsSelector s.1) (commas : ∀ s ∈ earlier, isComma s.2)
      (last_selector : IsSelector last)
      (begins : ∀ t ∈ (listTrees earlier ++ last).head?, beginsRule t)
      (curly : head.token = .opening .curly) (derives : ∀ p ∈ body, Derives .declarations p)
      (joined : Joined body) :
      Derives .rules (ruleset earlier last head body close)

end Phrase
end StyleSieve.Css
