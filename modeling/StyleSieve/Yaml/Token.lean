import StyleSieve.Text.Hex
import StyleSieve.Yaml.Chars

/-!
# Tokens of YAML

The tokens that collections, their parts and the properties of nodes are written with, and the
reading of names, tags and directives. Readers are given what follows the character that began a
token and tell how many characters of it they took.
-/

namespace StyleSieve.Yaml

/-- A tag as it is written: a handle that stands for a beginning, and the rest. -/
structure TagName where
  handle : String
  suffix : String
deriving Repr, DecidableEq

inductive Token where
  | version (major minor : Nat)
  /-- What a handle stands for in the tags of a document. -/
  | tagHandle (handle start : String)
  | documentStart
  | documentEnd
  | blockSequence
  | blockMapping
  | blockEnd
  | flowSequence
  | flowSequenceEnd
  | flowMapping
  | flowMappingEnd
  /-- The dash before a part of a block sequence. -/
  | entry
  | comma
  | key
  | value
  | alias (name : String)
  | anchor (name : String)
  | tag (name : TagName)
  | scalar (plain : Bool) (text : String)
deriving Repr, DecidableEq

/-! ## Names -/

/-- The characters that may follow a name at once. -/
def endsName (cs : List Char) : Bool :=
  endsWord cs || cs.head?.any ['?', ':', ',', ']', '}', '%', '@', '\x60'].contains

/-- The name of an anchor. -/
def readAnchor (cs : List Char) : Option (String × Nat) :=
  let name := cs.takeWhile isNameChar
  if name.isEmpty || !endsName (cs.drop name.length) then none
  else some (String.ofList name, name.length)

/-! ## Tags -/

def isTagChar (c : Char) : Bool :=
  isNameChar c || [';', '/', '?', ':', '@', '&', '=', '+', '$', '.', '!', '~', '*', '\'', '(',
    ')'].contains c

/-- A byte written with a percent sign and two hexadecimal digits. -/
def hexByte? : List Char → Option Nat
  | '%' :: a :: b :: _ =>
    if Text.isHexDigit a && Text.isHexDigit b then some (Text.hexNumber [a, b]) else none
  | _ => none

/-- The number of bytes of a character, and the part of its code in the first of them. -/
def leadingByte? (b : Nat) : Option (Nat × Nat) :=
  if b < 0x80 then some (1, b)
  else if 0xC0 ≤ b && b < 0xE0 then some (2, b - 0xC0)
  else if 0xE0 ≤ b && b < 0xF0 then some (3, b - 0xE0)
  else if 0xF0 ≤ b && b < 0xF8 then some (4, b - 0xF0)
  else none

/-- Adds the bytes that follow the first one of a character to its code. -/
def readTrailing : Nat → Nat → List Char → Option Nat
  | 0, code, _ => some code
  | n + 1, code, cs =>
    match hexByte? cs with
    | none => none
    | some b =>
      if 0x80 ≤ b && b < 0xC0 then readTrailing n (code * 64 + (b - 0x80)) (cs.drop 3) else none

/-- A character whose bytes are written as hexadecimal numbers after percent signs. -/
def readEncoded (cs : List Char) : Option (Char × Nat) := do
  let (width, code) ← leadingByte? (← hexByte? cs)
  some (Char.ofNat (← readTrailing (width - 1) code (cs.drop 3)), width * 3)

/-- The characters of a tag, last first before them, with the number taken. Within angle brackets
more of them are allowed. -/
def readTagText (inner : Bool) (n : Nat) (done : List Char) :
    List Char → Option (List Char × Nat)
  | [] => some (done.reverse, n)
  | c :: cs =>
    if c == '%' then
      match readEncoded (c :: cs) with
      | none => none
      | some (d, k) => readTagText inner (n + k) (d :: done) (cs.drop (k - 1))
    else if isTagChar c || (inner && [',', '[', ']'].contains c) then
      readTagText inner (n + 1) (c :: done) cs
    else some (done.reverse, n)
termination_by cs => cs.length
decreasing_by all_goals (simp; try omega)

/-- Text of a tag that must not be empty. -/
def readTagText? (inner : Bool) (cs : List Char) : Option (String × Nat) :=
  match readTagText inner 0 [] cs with
  | some (c :: text, n) => some (String.ofList (c :: text), n)
  | _ => none

/-- A tag, given what follows its exclamation mark: a whole tag in angle brackets, one with a named
handle, or one with the plain handle. The mark alone is a whole tag. -/
def readTagName (cs : List Char) : Option (TagName × Nat) :=
  match cs with
  | '<' :: rest =>
    match readTagText? true rest with
    | none => none
    | some (text, n) => if (rest.drop n).head? = some '>' then some (⟨"", text⟩, n + 2) else none
  | _ =>
    let name := cs.takeWhile isNameChar
    match cs.drop name.length with
    | '!' :: rest =>
      (fun (text, n) => (⟨"!" ++ String.ofList name ++ "!", text⟩, name.length + 1 + n)) <$>
        readTagText? false rest
    | rest =>
      (fun (text, n) =>
        let suffix := String.ofList (name ++ text)
        (if suffix.isEmpty then ⟨"", "!"⟩ else ⟨"!", suffix⟩, name.length + n)) <$>
        readTagText false 0 [] rest

/-- A tag must be followed by a gap, the end of the line, or a comma in flow collections. -/
def readTag (flow : Bool) (cs : List Char) : Option (TagName × Nat) :=
  match readTagName cs with
  | none => none
  | some (name, n) =>
    let rest := cs.drop n
    if endsWord rest || (flow && rest.head? = some ',') then some (name, n) else none

/-! ## Directives -/

/-- A number of at most nine digits. -/
def readNumber (cs : List Char) : Option (Nat × Nat) :=
  let digits := cs.takeWhile Char.isDigit
  if digits.isEmpty || 9 < digits.length then none
  else some (digits.foldl (fun n d => n * 10 + (d.toNat - 48)) 0, digits.length)

def readVersion (cs : List Char) : Option (Token × Nat) :=
  match readNumber cs with
  | none => none
  | some (major, n) =>
    if (cs.drop n).head? = some '.' then
      (fun (minor, k) => (.version major minor, n + 1 + k)) <$> readNumber (cs.drop (n + 1))
    else none

/-- A handle between exclamation marks, or one mark alone. -/
def readHandle : List Char → Option (String × Nat)
  | '!' :: cs =>
    let name := cs.takeWhile isNameChar
    if (cs.drop name.length).head? = some '!' then
      some ("!" ++ String.ofList name ++ "!", name.length + 2)
    else if name.isEmpty then some ("!", 1)
    else none
  | _ => none

def readTagHandle (cs : List Char) : Option (Token × Nat) :=
  match readHandle cs with
  | none => none
  | some (handle, n) =>
    let gap := ((cs.drop n).takeWhile isGap).length
    if gap = 0 then none
    else
      match readTagText? true (cs.drop (n + gap)) with
      | none => none
      | some (start, k) =>
        if endsWord (cs.drop (n + gap + k)) then some (.tagHandle handle start, n + gap + k)
        else none

/-- A directive, given what follows its percent sign. -/
def readDirective (cs : List Char) : Option (Token × Nat) :=
  let name := cs.takeWhile isNameChar
  let rest := cs.drop name.length
  let gap := (rest.takeWhile isGap).length
  let n := name.length + gap
  if !endsWord rest then none
  else if String.ofList name = "YAML" then
    (fun (t, k) => (t, n + k)) <$> readVersion (rest.drop gap)
  else if String.ofList name = "TAG" then
    (fun (t, k) => (t, n + k)) <$> readTagHandle (rest.drop gap)
  else none

end StyleSieve.Yaml
