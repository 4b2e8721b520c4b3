import StyleSieve.Pattern.Basic
import StyleSieve.Pattern.Property
import StyleSieve.Text.Hex

/-!
# Escapes in patterns

What a backslash stands for, inside brackets and outside. Every scanner answers with the text that
is left; a scanner that finds no meaning answers nothing at all.
-/

namespace StyleSieve.Pattern

open Text

/-- How the pattern is being read. -/
structure Flags where
  ignoreCase : Bool
  multiLine : Bool
  dotAll : Bool
  /-- A line may end with a carriage return and a line feed. -/
  returns : Bool
  unicode : Bool
  /-- White space and comments in the pattern count for nothing. -/
  spaced : Bool
deriving Repr, DecidableEq

def Flags.initial : Flags := ⟨false, false, false, false, true, false⟩

/-- The text after white space and comments, if those count for nothing; a comment ends with its
line. -/
def Flags.skip (f : Flags) (cs : List Char) : List Char := if f.spaced then go false cs else cs
where
  go (inComment : Bool) : List Char → List Char
    | [] => []
    | c :: cs =>
      if inComment then go (c != '\n') cs
      else if isBlank c then go false cs
      else if c == '#' then go true cs
      else c :: cs

/-- What an escape stands for. -/
inductive Escape where
  | char (c : Char)
  /-- A character given by two digits, which may be the number of a byte. -/
  | byte (c : Char)
  | set (s : CharSet)
  | look (l : Look)

/-- A fixed number of characters, each after what may be skipped. -/
def takeFixed (f : Flags) : Nat → List Char → Option (List Char × List Char)
  | 0, cs => some ([], cs)
  | n + 1, cs =>
    match f.skip cs with
    | [] => none
    | c :: rest => (takeFixed f n rest).map fun (ds, rest) => (c :: ds, rest)

/-- The characters up to a closing bracket, less what may be skipped. -/
def takeBraced (f : Flags) (cs : List Char) : Option (List Char × List Char) :=
  let inside := cs.takeWhile (· != '}')
  if inside.length < cs.length then
    some (if f.spaced then inside.filter (!isBlank ·) else inside, cs.drop (inside.length + 1))
  else none

/-- The character given by its number after `x`, `u` or `U`, which allow for so many digits if they
do not stand between brackets. -/
def readNumber (f : Flags) (digits : Nat) (cs : List Char) : Option (Escape × List Char) :=
  match f.skip cs with
  | '{' :: rest => do
    let (ds, rest) ← takeBraced f rest
    let c ← numberedChar ds
    some (.char c, rest)
  | rest => do
    let (ds, rest) ← takeFixed f digits rest
    let c ← numberedChar ds
    some (if digits = 2 then .byte c else .char c, rest)

/-- The set that a property name stands for; it may name a value after a sign of equality. -/
def propertySet (name : String) : Option CharSet :=
  match name.splitOn "!=" with
  | p :: v :: vs => (withValue p ("!=".intercalate (v :: vs))).map .except
  | _ =>
    match name.splitOn ":" with
    | p :: v :: vs => withValue p (":".intercalate (v :: vs))
    | _ =>
      match name.splitOn "=" with
      | p :: v :: vs => withValue p ("=".intercalate (v :: vs))
      | _ => named name

/-- The set of a property, whose name is one letter or stands between brackets. -/
def readProperty (f : Flags) (negated : Bool) (cs : List Char) : Option (Escape × List Char) := do
  let (name, rest) ← match f.skip cs with
    | [] => none
    | '{' :: rest => takeBraced f rest
    | '\\' :: _ => none
    | c :: rest => some ([c], rest)
  let s ← propertySet (String.ofList name)
  let s := if f.ignoreCase then .anyCase s else s
  if f.unicode then some (.set (if negated then .except s else s), rest) else none

/-- A class with a letter of its own. The complement of a class of ASCII may not be asked for
where only ASCII counts, since it would hold parts of characters. -/
def lettered (f : Flags) (negated : Bool) (wide ascii : CharSet) : Option Escape :=
  if f.unicode then some (.set (if negated then .except wide else wide))
  else if negated then none
  else some (.set ascii)

/-- The edge of a word with a name. -/
def edgeNamed : String → Option WordEdge
  | "start" => some .start
  | "end" => some .stop
  | "start-half" => some .startHalf
  | "end-half" => some .stopHalf
  | _ => none

def inEdgeName (c : Char) : Bool := c.isAlpha || c == '-'

/-- The edge of a word after `b`: named between brackets, or any. Brackets that hold something else
are left to be read as a repetition. -/
def readEdge (f : Flags) (cs : List Char) : Option (Escape × List Char) :=
  let plain := some (Escape.look (.word .either (!f.unicode)), cs)
  match cs with
  | '{' :: rest =>
    match f.skip rest with
    | [] => none
    | c :: more =>
      if inEdgeName c then do
        let (name, rest) ← takeBraced f (c :: more)
        let edge ← edgeNamed (String.ofList name)
        some (.look (.word edge (!f.unicode)), rest)
      else plain
  | _ => plain

/-- Marks that mean something in a pattern. -/
def isMeta (c : Char) : Bool := "\\.+*?()|[]{}^$#&-~".toList.contains c

/-- Marks of ASCII, which may be escaped whether they need it or not. -/
def isEscapable (c : Char) : Bool :=
  isMeta c || (c.toNat < 0x80 && !c.isAlphanum && c != '<' && c != '>')

/-- What follows a backslash. -/
def readEscape (f : Flags) : List Char → Option (Escape × List Char)
  | [] => none
  | c :: cs =>
    match c with
    | 'x' => readNumber f 2 cs
    | 'u' => readNumber f 4 cs
    | 'U' => readNumber f 8 cs
    | 'p' => readProperty f false cs
    | 'P' => readProperty f true cs
    | 'd' => (lettered f false digits asciiDigits).map (·, cs)
    | 'D' => (lettered f true digits asciiDigits).map (·, cs)
    | 's' => (lettered f false spaces asciiSpaces).map (·, cs)
    | 'S' => (lettered f true spaces asciiSpaces).map (·, cs)
    | 'w' => (lettered f false wordChars asciiWordChars).map (·, cs)
    | 'W' => (lettered f true wordChars asciiWordChars).map (·, cs)
    | 'a' => some (.char '\x07', cs)
    | 'f' => some (.char '\x0c', cs)
    | 't' => some (.char '\t', cs)
    | 'n' => some (.char '\n', cs)
    | 'r' => some (.char '\r', cs)
    | 'v' => some (.char '\x0b', cs)
    | 'A' => some (.look .textStart, cs)
    | 'z' => some (.look .textEnd, cs)
    | 'b' => readEdge f cs
    | 'B' => some (.look (.word .neither (!f.unicode)), cs)
    | '<' => some (.look (.word .start (!f.unicode)), cs)
    | '>' => some (.look (.word .stop (!f.unicode)), cs)
    | c => if isEscapable c then some (.char c, cs) else none

end StyleSieve.Pattern
