/-!
# Characters of YAML

Which characters a document may hold, which of them end lines, and how far a text moves a mark.
-/

namespace StyleSieve.Yaml

/-- A document may hold printable characters, tabs and the ends of lines. -/
def isAllowed (c : Char) : Bool :=
  let n := c.toNat
  n = 0x9 || n = 0xA || n = 0xD || (0x20 ≤ n && n ≤ 0x7E) || n = 0x85 || (0xA0 ≤ n && n ≤ 0xD7FF)
    || (0xE000 ≤ n && n ≤ 0xFFFD && n ≠ 0xFEFF) || 0x10000 ≤ n

/-- A text in which carriage returns and next-line controls are line feeds; the two characters that
end a line together become one. -/
def plainBreaks : List Char → List Char
  | '\r' :: '\n' :: cs => '\n' :: plainBreaks cs
  | c :: cs => (if c = '\r' || c = '\u0085' then '\n' else c) :: plainBreaks cs
  | [] => []

/-- Ends a line, once line feeds stand for the other controls. -/
def isBreak (c : Char) : Bool := c == '\n' || c == '\u2028' || c == '\u2029'

/-- Separates words on a line. -/
def isGap (c : Char) : Bool := c == ' ' || c == '\t'

def isNameChar (c : Char) : Bool := c.isAlphanum || c == '_' || c == '-'

/-- A word that comes before the text ends there. -/
def endsWord : List Char → Bool
  | [] => true
  | c :: _ => isGap c || isBreak c

/-- The text begins with a line of three such characters, or of more after a gap. -/
def isMarker (d : Char) : List Char → Bool
  | a :: b :: c :: cs => a == d && b == d && c == d && endsWord cs
  | _ => false

/-- The text begins with the marker of a document's start or end. -/
def isDocumentMarker (cs : List Char) : Bool := isMarker '-' cs || isMarker '.' cs

/-- A position in lines and in characters of a line. -/
structure Mark where
  line : Nat
  column : Nat
deriving Repr, DecidableEq

def Mark.next (m : Mark) (c : Char) : Mark :=
  if isBreak c then ⟨m.line + 1, 0⟩ else ⟨m.line, m.column + 1⟩

/-- The position behind some characters. -/
def Mark.past (m : Mark) (cs : List Char) : Mark := cs.foldl Mark.next m

end StyleSieve.Yaml
