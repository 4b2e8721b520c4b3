import StyleSieve.Text.Blank
import StyleSieve.Text.Folded
import StyleSieve.Text.WordChar
import StyleSieve.Css.Chars

/-!
# Raw text

The content of some elements is not markup. It is taken out before a document is read: from the
start tag of such an element up to the next end tag of the same name nothing is left. A start tag
that no end tag follows is left alone.
-/

namespace StyleSieve.Markup

open Text
open Css (startsWith)

/-- Elements whose content is raw text, in the order in which they are emptied. -/
def rawTextElements : List String := ["script", "style", "textarea"]

/-- A text begins with a name, in any letter case. -/
def spells : List Char → List Char → Bool
  | [], _ => true
  | _ :: _, [] => false
  | n :: ns, c :: cs => sameLetter n c && spells ns cs

/-- Characters after the first of a start tag at the head of a text, which ends at the first closing
bracket. Only the name counts; no word character may follow it. -/
def startTagLength (name : List Char) : List Char → Option Nat
  | '<' :: cs =>
    let after := cs.drop name.length
    let more := (after.takeWhile (· != '>')).length
    if spells name cs && !startsWith isWord after && more < after.length then
      some (name.length + more + 1)
    else none
  | _ => none

/-- Characters of an end tag at the head of a text. -/
def endTagLength (name : List Char) : List Char → Option Nat
  | '<' :: '/' :: cs =>
    let after := cs.drop name.length
    let blank := (after.takeWhile isBlank).length
    if spells name cs && startsWith (· == '>') (after.drop blank) then
      some (2 + name.length + blank + 1)
    else none
  | _ => none

/-- The first end tag of a text: the characters before it and its own. -/
def findEndTag (name : List Char) : List Char → Option (Nat × Nat)
  | [] => none
  | c :: cs =>
    match endTagLength name (c :: cs) with
    | some n => some (0, n)
    | none => (findEndTag name cs).map fun (before, n) => (before + 1, n)

/-- A text with the content of one kind of raw text element taken out. -/
def emptyOut (name : List Char) : List Char → List Char
  | [] => []
  | c :: cs =>
    match startTagLength name (c :: cs) with
    | none => c :: emptyOut name cs
    | some n =>
      match findEndTag name (cs.drop n) with
      | none => c :: emptyOut name cs
      | some (content, stop) =>
        c :: cs.take n ++ ((cs.drop (n + content)).take stop
          ++ emptyOut name (cs.drop (n + content + stop)))
termination_by cs => cs.length
decreasing_by all_goals (simp; try omega)

/-- A document without the content of its raw text elements. -/
def withoutRawText (source : List Char) : List Char :=
  rawTextElements.foldl (fun cs name => emptyOut name.toList cs) source

end StyleSieve.Markup
