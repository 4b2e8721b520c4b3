import StyleSieve.Text.Hex

/-!
# Texts of TOML

White space, comments, quoted texts and keys. Readers tell how many characters they took; where a
character has been looked at already, they are given it and count what they took after it.
-/

namespace StyleSieve.Toml

/-- White space on a line. -/
def isGap (c : Char) : Bool := c == ' ' || c == '\t'

/-- Characters that comments and quoted texts may hold as they are. -/
def isPrintable (c : Char) : Bool := c == '\t' || (' ' ≤ c && c ≠ '\x7f')

def isBare (c : Char) : Bool := c.isAlphanum || c == '_' || c == '-'

/-- The number of characters of a line's end, if the text begins with one. -/
def breakLength : List Char → Nat
  | '\n' :: _ => 1
  | '\r' :: '\n' :: _ => 2
  | _ => 0

def gapLength (cs : List Char) : Nat := (cs.takeWhile isGap).length

/-- The number of characters of a comment, if the text begins with one. -/
def commentLength : List Char → Nat
  | '#' :: cs => (cs.takeWhile isPrintable).length + 1
  | _ => 0

/-- White space, a comment and the end of the line, or nothing if something else is on it. -/
def restOfLine (cs : List Char) : Option Nat :=
  let gap := gapLength cs
  let comment := commentLength (cs.drop gap)
  let n := gap + comment
  match cs.drop n with
  | [] => some n
  | rest => if breakLength rest = 0 then none else some (n + breakLength rest)

/-- White space, comments and ends of lines. -/
def fillerLength (n : Nat) : List Char → Nat
  | [] => n
  | c :: cs =>
    if isGap c || c == '\n' then fillerLength (n + 1) cs
    else if c == '\r' && cs.head? = some '\n' then fillerLength (n + 2) (cs.drop 1)
    else if c == '#' then
      let k := (cs.takeWhile isPrintable).length
      fillerLength (n + 1 + k) (cs.drop k)
    else n
termination_by cs => cs.length
decreasing_by all_goals (simp; try omega)

/-! ## Quoted texts -/

/-- What follows a backslash, and how many characters that are. -/
def readEscape : List Char → Option (Char × Nat)
  | 'b' :: _ => some ('\x08', 1)
  | 't' :: _ => some ('\t', 1)
  | 'n' :: _ => some ('\n', 1)
  | 'f' :: _ => some ('\x0c', 1)
  | 'r' :: _ => some ('\r', 1)
  | '"' :: _ => some ('"', 1)
  | '\\' :: _ => some ('\\', 1)
  | 'u' :: cs => (·, 5) <$> Text.leadingChar 4 cs
  | 'U' :: cs => (·, 9) <$> Text.leadingChar 8 cs
  | _ => none

/-- Reads on between double quotes; `done` is the text so far, last first. -/
def readBasic (n : Nat) (done : List Char) : List Char → Option (String × Nat)
  | [] => none
  | '"' :: _ => some (String.ofList done.reverse, n + 1)
  | '\\' :: cs =>
    match readEscape cs with
    | none => none
    | some (c, k) => readBasic (n + 1 + k) (c :: done) (cs.drop k)
  | c :: cs => if isPrintable c then readBasic (n + 1) (c :: done) cs else none
termination_by cs => cs.length
decreasing_by all_goals (simp; try omega)

/-- Reads on between single quotes. -/
def readLiteral (n : Nat) (done : List Char) : List Char → Option (String × Nat)
  | [] => none
  | '\'' :: _ => some (String.ofList done.reverse, n + 1)
  | c :: cs => if isPrintable c then readLiteral (n + 1) (c :: done) cs else none

/-- White space after a backslash that goes over the end of a line: it is left out. -/
def escapedBreak (cs : List Char) : Option Nat :=
  let gap := gapLength cs
  let first := breakLength (cs.drop gap)
  if first = 0 then none
  else
    let rest := cs.drop (gap + first)
    some (gap + first + blankLines rest.length 0 rest)
where
  /-- White space and ends of lines, of which `fuel` bounds the number. -/
  blankLines : Nat → Nat → List Char → Nat
    | 0, n, _ => n
    | fuel + 1, n, cs =>
      if cs.head?.any isGap then blankLines fuel (n + 1) (cs.drop 1)
      else
        let k := breakLength cs
        if k = 0 then n else blankLines fuel (n + k) (cs.drop k)

/-- Reads on in a text over several lines up to three quotes; one or two more quotes may belong to
its end. With `escapes` a backslash is special. -/
def readLines (quote : Char) (escapes : Bool) (n : Nat) (done : List Char) :
    List Char → Option (String × Nat)
  | [] => none
  | c :: cs =>
    if c == quote then
      let quotes := (cs.takeWhile (· == quote)).length + 1
      if quotes < 3 then readLines quote escapes (n + 1) (c :: done) cs
      else
        let more := min (quotes - 3) 2
        some (String.ofList (done.reverse ++ List.replicate more quote), n + 3 + more)
    else if escapes && c == '\\' then
      match escapedBreak cs with
      | some k => readLines quote escapes (n + 1 + k) done (cs.drop k)
      | none =>
        match readEscape cs with
        | none => none
        | some (d, k) => readLines quote escapes (n + 1 + k) (d :: done) (cs.drop k)
    else if c == '\n' then readLines quote escapes (n + 1) ('\n' :: done) cs
    else if c == '\r' && cs.head? = some '\n' then
      readLines quote escapes (n + 2) ('\n' :: done) (cs.drop 1)
    else if isPrintable c then readLines quote escapes (n + 1) (c :: done) cs
    else none
termination_by cs => cs.length
decreasing_by all_goals (simp; try omega)

/-- A text after its first quote. The end of a line right behind three quotes is left out. -/
def readText (quote : Char) (cs : List Char) : Option (String × Nat) :=
  let escapes := quote == '"'
  match cs with
  | a :: b :: rest =>
    if a == quote && b == quote then
      let k := breakLength rest
      readLines quote escapes (k + 2) [] (rest.drop k)
    else if escapes then readBasic 0 [] cs
    else readLiteral 0 [] cs
  | cs => if escapes then readBasic 0 [] cs else readLiteral 0 [] cs

/-! ## Keys -/

/-- One part of a key. -/
def readKey (c : Char) (cs : List Char) : Option (String × Nat) :=
  if c == '"' then readBasic 0 [] cs
  else if c == '\'' then readLiteral 0 [] cs
  else if isBare c then
    let more := cs.takeWhile isBare
    some (String.ofList (c :: more), more.length)
  else none

/-- The parts of a key, which dots separate, with the white space around them, however many there
are. -/
def readParts (n : Nat) (done : List String) : List Char → Option (List String × Nat)
  | [] => none
  | c :: cs =>
    if isGap c then readParts (n + 1) done cs
    else
      match readKey c cs with
      | none => none
      | some (key, k) =>
        let rest := cs.drop k
        let gap := gapLength rest
        match h : rest.drop gap with
        | '.' :: more => readParts (n + k + gap + 2) (key :: done) more
        | _ => some ((key :: done).reverse, n + 1 + k + gap)
termination_by cs => cs.length
decreasing_by
  · simp
  · have := congrArg List.length h
    simp only [rest, List.length_drop, List.length_cons] at this ⊢
    omega

/-- Arrays and tables in braces nest less deep than this, and a key has fewer parts. -/
def nestLimit : Nat := 80

/-- A key with the number of characters that it takes. -/
def readPath (cs : List Char) : Option (List String × Nat) :=
  (readParts 0 [] cs).filter fun (path, _) => path.length < nestLimit

end StyleSieve.Toml
