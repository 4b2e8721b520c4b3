import StyleSieve.Files.Path

/-!
# Globs

Patterns for paths. A single star stands for any text, and in the last resort for slashes too; a
double star stands for whole parts of a path.
-/

namespace StyleSieve.Files

/-- Characters asked for by a bracket: ranges of which single ones have one member. -/
abbrev CharRanges := List (Char × Char)

def CharRanges.has (rs : CharRanges) (c : Char) : Bool := rs.any fun (a, b) => a ≤ c && c ≤ b

inductive GlobToken where
  | char (c : Char)
  | anyChar
  | anyText
  /-- Any number of whole parts of a path. -/
  | anyParts
  | within (ranges : CharRanges)
  | outside (ranges : CharRanges)
deriving Repr, DecidableEq

inductive GlobFault where
  | tooManyStars
  | partialStars
  | badRange
deriving Repr, DecidableEq

def GlobFault.message : GlobFault → String
  | tooManyStars => "wildcards are either regular \x60*\x60 or recursive \x60**\x60"
  | partialStars => "recursive wildcards must form a single path component"
  | badRange => "invalid range pattern"

/-- A fault and the number of characters before it. -/
structure GlobError where
  fault : GlobFault
  position : Nat
deriving Repr, DecidableEq

def GlobError.message (e : GlobError) : String :=
  "Pattern syntax error near position " ++ toString e.position ++ ": " ++ e.fault.message

structure Glob where
  tokens : List GlobToken
deriving Repr, DecidableEq

/-- The glob stands for any number of parts somewhere. -/
def Glob.isRecursive (g : Glob) : Bool := g.tokens.contains .anyParts

/-- The only text that a glob without wildcards stands for. -/
def Glob.literal? (g : Glob) : Option String :=
  String.ofList <$> g.tokens.mapM fun t =>
    match t with
    | .char c => some c
    | _ => none

/-! ## Matching -/

/-- The ends of a text, from the whole of it to nothing. -/
def suffixes : List Char → List (List Char)
  | [] => [[]]
  | c :: cs => (c :: cs) :: suffixes cs

/-- The ends of a text that begin a part of a path, and its very end. -/
def partSuffixes : List Char → List (List Char)
  | [] => [[]]
  | c :: cs => if isSlash c then cs :: partSuffixes cs else partSuffixes cs

def matchesTokens : List GlobToken → List Char → Bool
  | [], cs => cs.isEmpty
  | .anyText :: ts, cs => (suffixes cs).any (matchesTokens ts)
  | .anyParts :: ts, cs => (cs :: partSuffixes cs).any (matchesTokens ts)
  | _ :: _, [] => false
  | .char d :: ts, c :: cs => d == c && matchesTokens ts cs
  | .anyChar :: ts, _ :: cs => matchesTokens ts cs
  | .within rs :: ts, c :: cs => rs.has c && matchesTokens ts cs
  | .outside rs :: ts, c :: cs => !rs.has c && matchesTokens ts cs

/-- The glob stands for the whole of the text. -/
def Glob.accepts (g : Glob) (text : String) : Bool := matchesTokens g.tokens text.toList

/-! ## Reading -/

/-- The members of a bracket. -/
def readRanges : List Char → CharRanges
  | a :: '-' :: b :: cs => (a, b) :: readRanges cs
  | a :: cs => (a, a) :: readRanges cs
  | [] => []

/-- What follows an opening bracket, with the characters that it takes. The first member may be a
closing bracket. -/
def readBracket : List Char → Option (GlobToken × Nat)
  | '!' :: c :: cs =>
    let more := cs.takeWhile (· != ']')
    if more.length < cs.length then
      some (.outside (readRanges (c :: more)), more.length + 3)
    else none
  | '!' :: [] => none
  | c :: cs =>
    let more := cs.takeWhile (· != ']')
    if more.length < cs.length then
      some (.within (readRanges (c :: more)), more.length + 2)
    else none
  | [] => none

/-- A double star after a token that is not the first says nothing new. -/
def addParts (done : List GlobToken) : List GlobToken :=
  match done with
  | .anyParts :: _ :: _ => done
  | _ => .anyParts :: done

/-- Reads a glob from character `pos` on, which `before` precedes; the tokens are held last
first. -/
def readGlob (pos : Nat) (before : Option Char) (done : List GlobToken) :
    List Char → Except GlobError (List GlobToken)
  | [] => .ok done.reverse
  | '?' :: cs => readGlob (pos + 1) (some '?') (.anyChar :: done) cs
  | '*' :: '*' :: '*' :: _ => .error ⟨.tooManyStars, pos + 2⟩
  | '*' :: '*' :: cs =>
    if before.all isSlash then
      match cs with
      | [] => .ok (addParts done).reverse
      | c :: rest =>
        if isSlash c then readGlob (pos + 3) (some c) (addParts done) rest
        else .error ⟨.partialStars, pos + 2⟩
    else .error ⟨.partialStars, pos - 1⟩
  | '*' :: cs => readGlob (pos + 1) (some '*') (.anyText :: done) cs
  | '[' :: cs =>
    match readBracket cs with
    | none => .error ⟨.badRange, pos⟩
    | some (t, n) => readGlob (pos + 1 + n) (some ']') (t :: done) (cs.drop n)
  | c :: cs => readGlob (pos + 1) (some c) (.char c :: done) cs
termination_by cs => cs.length
decreasing_by all_goals (simp; try omega)

def Glob.parse (text : String) : Except GlobError Glob :=
  Glob.mk <$> readGlob 0 none [] text.toList

end StyleSieve.Files
