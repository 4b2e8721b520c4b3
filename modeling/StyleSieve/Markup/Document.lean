import StyleSieve.Markup.Attribute
import StyleSieve.Markup.RawText
import StyleSieve.Selector.Compound
import StyleSieve.Text.Alphabetic

/-!
# Documents

A document offers one compound for every start tag. Names, identifiers and classes are put in lower
case, and an attribute counts by its name alone.
-/

namespace StyleSieve.Markup

open Text
open Selector (Compound)

/-- A text without quotes around it, in lower case. -/
def plainValue (s : String) : String := lowerCase (unquote s)

/-- The classes listed in an attribute. -/
def classesOf (value : String) : List String :=
  ((words value).map plainValue).filter (!·.isEmpty)

/-- An element with one attribute more. A later identifier replaces an earlier one. -/
def withAttribute (c : Compound) (a : Attribute) : Compound :=
  let name := lowerCase (String.ofList a.name)
  let value := String.ofList a.value
  if name = "id" then { c with id := some (plainValue value) }
  else if name = "class" then { c with classes := (classesOf value).foldl NameSet.insert c.classes }
  else { c with attributes := c.attributes.insert name }

/-- The inside of a tag without the slash that ends an empty element. -/
def withoutSlash (content : List Char) : List Char :=
  if content.getLast? = some '/' then content.dropLast else content

/-- The element of a start tag. -/
def elementOf (content : List Char) : Except MarkupFault Compound :=
  let inside := withoutSlash content
  let name := inside.takeWhile (!isTagSpace ·)
  let start := Compound.ofTag (lowerCase (String.ofList name))
  (·.foldl withAttribute start) <$> attributes (width inside) (inside.drop name.length)

/-- The elements of some pieces, or the first fault among them. -/
def elementsOf : List Piece → Except MarkupError (List Compound)
  | [] => .ok []
  | .fault e :: _ => .error e
  | .tag content stop :: ps =>
    match elementOf content with
    | .error fault => .error ⟨fault, stop⟩
    | .ok c => (c :: ·) <$> elementsOf ps

/-- The text after the last opening bracket, if there is one. -/
def lastOpened (cs : List Char) : Option (List Char) :=
  if cs.contains '<' then some ((cs.reverse.takeWhile (· != '<')).reverse) else none

/-- The offset of a tag that the text ends within. -/
def openTagAt (cs : List Char) : Option Nat :=
  match lastOpened cs with
  | none => none
  | some [] => none
  | some (c :: tail) =>
    if (c :: tail).contains '>' then none
    else if alphabetic.has c || c == '/' || c == '!' then
      some (width cs - width (c :: tail) - 1)
    else none

/-- The byte order mark. -/
def orderMark : Char := Char.ofNat 0xFEFF

/-- A text without the mark that may begin it. -/
def withoutMark : List Char → List Char
  | [] => []
  | c :: cs => if c == orderMark then cs else c :: cs

/-- The elements of a document in order. -/
def elements (source : String) : Except MarkupError (List Compound) :=
  let markup := withoutRawText source.toList
  match elementsOf (pieces 0 (withoutMark markup)) with
  | .error e => .error e
  | .ok found =>
    match openTagAt markup with
    | some offset => .error ⟨.openTag, offset⟩
    | none => .ok found

end StyleSieve.Markup
