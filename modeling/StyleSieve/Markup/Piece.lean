import StyleSieve.Css.Chars
import StyleSieve.Text.Blank
import StyleSieve.Text.Width

/-!
# Pieces of markup

A document is read from one opening angle bracket to the next. Reading is lenient: text, end tags,
comments and instructions are passed over, and only start tags are kept, each with the offset at
which it ends.
-/

namespace StyleSieve.Markup

open Text
open Css (startsWith)

/-- What may be left unfinished. -/
inductive Construct where
  /-- An exclamation mark with nothing after it. -/
  | bang
  | comment
  | characterData
  | documentType
  | instruction
deriving Repr, DecidableEq

def Construct.text : Construct → String
  | bang => "Bang"
  | comment => "Comment"
  | characterData => "CData"
  | documentType => "DOCTYPE"
  | instruction => "XmlDecl"

/-- What makes a document malformed. The positions in `missingValue` and `missingQuote` count the
bytes of the tag up to its end. -/
inductive MarkupFault where
  | unfinished (what : Construct)
  /-- The byte after an exclamation mark begins nothing known; it is shown as a character. -/
  | unknownBang (shown : Char)
  | emptyDocumentType
  | missingValue (position : Nat)
  | missingQuote (position : Nat) (quote : Char)
  | openTag
deriving Repr, DecidableEq

def MarkupFault.message : MarkupFault → String
  | unfinished what => "Unexpected EOF during reading " ++ what.text
  | unknownBang shown =>
    "Only Comment (\x60--\x60), CDATA (\x60[CDATA[\x60) and DOCTYPE (\x60DOCTYPE\x60) nodes "
      ++ "can start with a '!', but symbol \x60" ++ String.ofList [shown] ++ "\x60 found"
  | emptyDocumentType => "DOCTYPE declaration must not be empty"
  | missingValue position =>
    "position " ++ toString position ++ ": \x60=\x60 must be followed by an attribute value"
  | missingQuote position quote =>
    "position " ++ toString position ++ ": missing closing quote \x60" ++ String.ofList [quote]
      ++ "\x60 in attribute value"
  | openTag => "unexpected end of input inside a tag"

/-- A fault and where it is. -/
structure MarkupError where
  fault : MarkupFault
  offset : Nat
deriving Repr, DecidableEq

def MarkupError.message (e : MarkupError) : String :=
  "HTML syntax error at offset " ++ toString e.offset ++ ": " ++ e.fault.message

/-- White space inside a tag. -/
def isTagSpace (c : Char) : Bool := c == ' ' || c == '\t' || c == '\r' || c == '\n'

/-- A piece of markup that matters: the inside of a start tag that ends before byte `stop`, or the
fault at which reading ends. -/
inductive Piece where
  | tag (content : List Char) (stop : Nat)
  | fault (error : MarkupError)
deriving Repr, DecidableEq

/-! ## Where pieces end -/

/-- The inside of a start tag: the text up to a closing bracket that is not between quotes. -/
def tagContent (quote : Option Char) : List Char → List Char
  | [] => []
  | c :: cs =>
    match quote with
    | some q => c :: tagContent (if c == q then none else some q) cs
    | none =>
      if c == '>' then [] else c :: tagContent (if isQuote c then some c else none) cs

/-- The text up to the first closing bracket at which it may end; `before` is what has been read,
last first. -/
def textUpTo (mayEnd : List Char → Bool) (before : List Char) : List Char → Option (List Char)
  | [] => none
  | c :: cs =>
    if c == '>' && mayEnd before then some before.reverse else textUpTo mayEnd (c :: before) cs

/-- A comment ends after two hyphens, and its opening hyphens are not among them. -/
def endsComment (before : List Char) : Bool :=
  before.take 2 == ['-', '-'] && 4 ≤ before.length

def endsCharacterData (before : List Char) : Bool := before.take 2 == [']', ']']

/-- A document type ends where as many brackets have been closed as were opened inside it. -/
def endsDocumentType (before : List Char) : Bool := before.count '<' == before.count '>'

/-- A text begins with some ASCII text in upper case, up to the case of its letters. -/
def beginsWith (start cs : List Char) : Bool := (cs.take start.length).map Char.toUpper == start

/-- The first byte of a character, shown as the character of that number. -/
def firstByte (c : Char) : Char :=
  let n := c.toNat
  if n < 0x80 then c
  else if n < 0x800 then Char.ofNat (0xC0 + n / 0x40)
  else if n < 0x10000 then Char.ofNat (0xE0 + n / 0x1000)
  else Char.ofNat (0xF0 + n / 0x40000)

/-! ## Pieces -/

/-- What follows an exclamation mark, and the characters that it takes: `check` tells whether a
finished text is what it seemed to be. -/
def readBang (what : Construct) (mayEnd : List Char → Bool)
    (check : List Char → Option MarkupFault) (here : Nat) (cs : List Char) : Option Piece × Nat :=
  match textUpTo mayEnd [] cs with
  | none => (some (.fault ⟨.unfinished what, here⟩), cs.length)
  | some text =>
    match check text with
    | none => (none, text.length + 1)
    | some fault => (some (.fault ⟨fault, here + width text + 2⟩), text.length + 1)

def checkComment (text : List Char) : Option MarkupFault :=
  if text.take 2 == ['-', '-'] then none else some (.unfinished .comment)

def checkCharacterData (text : List Char) : Option MarkupFault :=
  if beginsWith ['[', 'C', 'D', 'A', 'T', 'A', '['] text then none
  else some (.unfinished .characterData)

def checkDocumentType (text : List Char) : Option MarkupFault :=
  if beginsWith ['D', 'O', 'C', 'T', 'Y', 'P', 'E'] text then
    if (text.drop 7).all isTagSpace then some .emptyDocumentType else none
  else some (.unfinished .documentType)

/-- The piece after an opening bracket that ends before byte `here`, if it matters, and the
characters that it takes. -/
def readPiece (here : Nat) : List Char → Option Piece × Nat
  | [] => (none, 0)
  | '!' :: cs =>
    let bang : Option Piece × Nat := match cs with
      | [] => (some (.fault ⟨.unfinished .bang, here⟩), 0)
      | '[' :: _ =>
        readBang .characterData endsCharacterData checkCharacterData here cs
      | '-' :: _ => readBang .comment endsComment checkComment here cs
      | 'D' :: _ => readBang .documentType endsDocumentType checkDocumentType here cs
      | 'd' :: _ => readBang .documentType endsDocumentType checkDocumentType here cs
      | c :: _ => (some (.fault ⟨.unknownBang (firstByte c), here⟩), 0)
    (bang.1, bang.2 + 1)
  | '/' :: cs => (none, (cs.takeWhile (· != '>')).length + 2)
  | '?' :: cs =>
    let text := cs.takeWhile (· != '>')
    let close := if text.length < cs.length then 1 else 0
    if 2 ≤ text.length && text.getLast? == some '?' then (none, text.length + 1 + close)
    else (some (.fault ⟨.unfinished .instruction, here + close⟩), text.length + 1 + close)
  | c :: cs =>
    let content := tagContent none (c :: cs)
    if content.length < cs.length + 1 then
      (some (.tag content (here + width content + 1)), content.length + 1)
    else (some (.tag content here), content.length)

/-- The pieces of a text that begins at byte `pos`. Nothing is read after a fault. -/
def pieces (pos : Nat) (cs : List Char) : List Piece :=
  let text := cs.takeWhile (· != '<')
  match h : cs.drop text.length with
  | [] => []
  | _ :: rest =>
    let here := pos + width text + 1
    let piece := readPiece here rest
    have : (cs.drop text.length).length = rest.length + 1 := by simp [h]
    let more := pieces (here + width (rest.take piece.2)) (rest.drop piece.2)
    match piece.1 with
    | none => more
    | some (.fault e) => [.fault e]
    | some p => p :: more
termination_by cs.length
decreasing_by simp at *; omega

end StyleSieve.Markup
