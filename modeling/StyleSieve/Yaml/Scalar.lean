import StyleSieve.Text.Hex
import StyleSieve.Yaml.Chars

/-!
# Scalars

Texts between quotes, plain texts and blocks of text. Readers are given what follows the character
that began a scalar and tell how many characters of it they took. White space is held back as a gap
until it is known what comes after it: ends of lines are folded.
-/

namespace StyleSieve.Yaml

/-! ## Folding -/

/-- White space between words. Once a line has ended, blanks do not count. All is held last
first. -/
inductive Gap where
  | blanks (cs : List Char)
  /-- The end of a line, unless it was escaped, and the ends of empty lines after it. -/
  | breaks (first : Option Char) (more : List Char)
deriving Repr, DecidableEq

namespace Gap

def none : Gap := .blanks []

def isNone : Gap → Bool
  | blanks cs => cs.isEmpty
  | breaks .. => false

/-- The gap goes over the end of a line. -/
def isLong : Gap → Bool
  | blanks _ => false
  | breaks .. => true

def addBlank (c : Char) : Gap → Gap
  | blanks cs => blanks (c :: cs)
  | g => g

def addBreak (c : Char) : Gap → Gap
  | blanks _ => breaks (some c) []
  | breaks first more => breaks first (c :: more)

/-- What the gap stands for: a single line feed is a blank, and before others it is dropped. -/
def folded : Gap → List Char
  | blanks cs => cs
  | breaks (some '\n') [] => [' ']
  | breaks (some '\n') more => more
  | breaks first more => more ++ first.toList

end Gap

/-! ## Quoted texts -/

/-- Reads on between single quotes, of which two stand for one. `done` is the text so far, last
first, and `n` counts what was taken. -/
def readSingle (column n : Nat) (done : List Char) (gap : Gap) :
    List Char → Option (List Char × Nat)
  | [] => none
  | '\'' :: '\'' :: cs =>
    readSingle (column + 2) (n + 2) ('\'' :: (gap.folded ++ done)) .none cs
  | '\'' :: _ => some ((gap.folded ++ done).reverse, n + 1)
  | c :: cs =>
    if isBreak c then readSingle 0 (n + 1) done (gap.addBreak c) cs
    else if isGap c then readSingle (column + 1) (n + 1) done (gap.addBlank c) cs
    else if column = 0 && isDocumentMarker (c :: cs) then none
    else readSingle (column + 1) (n + 1) (c :: (gap.folded ++ done)) .none cs

/-- What follows a backslash between double quotes, and how many characters that are. -/
def readEscape : List Char → Option (Char × Nat)
  | [] => none
  | c :: cs =>
    match c with
    | '0' => some ('\x00', 1)
    | 'a' => some ('\x07', 1)
    | 'b' => some ('\x08', 1)
    | 't' | '\t' => some ('\t', 1)
    | 'n' => some ('\n', 1)
    | 'v' => some ('\x0b', 1)
    | 'f' => some ('\x0c', 1)
    | 'r' => some ('\r', 1)
    | 'e' => some ('\x1b', 1)
    | ' ' | '"' | '/' | '\\' => some (c, 1)
    | 'N' => some ('\u0085', 1)
    | '_' => some ('\u00a0', 1)
    | 'L' => some ('\u2028', 1)
    | 'P' => some ('\u2029', 1)
    | 'x' => (·, 3) <$> Text.leadingChar 2 cs
    | 'u' => (·, 5) <$> Text.leadingChar 4 cs
    | 'U' => (·, 9) <$> Text.leadingChar 8 cs
    | _ => none

/-- Reads on between double quotes. An escaped end of a line is dropped with what begins the next
line. -/
def readDouble (column n : Nat) (done : List Char) (gap : Gap) :
    List Char → Option (List Char × Nat)
  | [] => none
  | '"' :: _ => some ((gap.folded ++ done).reverse, n + 1)
  | '\\' :: cs =>
    let done := gap.folded ++ done
    match cs with
    | [] => none
    | d :: ds =>
      if isBreak d then readDouble 0 (n + 2) done (.breaks none []) ds
      else
        match readEscape (d :: ds) with
        | none => none
        | some (c, k) =>
          readDouble (column + k + 1) (n + k + 1) (c :: done) .none ((d :: ds).drop k)
  | c :: cs =>
    if isBreak c then readDouble 0 (n + 1) done (gap.addBreak c) cs
    else if isGap c then readDouble (column + 1) (n + 1) done (gap.addBlank c) cs
    else if column = 0 && isDocumentMarker (c :: cs) then none
    else readDouble (column + 1) (n + 1) (c :: (gap.folded ++ done)) .none cs
termination_by cs => cs.length
decreasing_by all_goals (simp; try omega)

/-! ## Plain texts -/

/-- A plain text, the number of characters taken with the white space after it, and whether that
goes over the end of a line. -/
structure Plain where
  text : List Char
  taken : Nat
  isLong : Bool
deriving Repr, DecidableEq

/-- Brackets and the comma of flow collections. -/
def isFlowMark (c : Char) : Bool := [',', '[', ']', '{', '}'].contains c

/-- A plain text ends before the character if white space precedes it: at lines that are indented
less than `indent`, at document markers and at comments. -/
def endsPlainAfterGap (flow : Bool) (indent column : Nat) (c : Char) (cs : List Char) : Bool :=
  (!flow && column < indent) || (column = 0 && isDocumentMarker (c :: cs)) || c == '#'

/-- A plain text ends before the character wherever it stands. -/
def endsPlain (flow : Bool) (c : Char) (cs : List Char) : Bool :=
  (c == ':' && endsWord cs) || (flow && isFlowMark c)

/-- In flow collections a colon that nothing can follow is a fault. -/
def isBadColon (flow : Bool) (c : Char) (cs : List Char) : Bool :=
  flow && c == ':' && cs.head?.any fun d => isFlowMark d || d == '?'

/-- Reads on in a plain text. Tabs do not indent its lines. -/
def readPlain (flow : Bool) (indent column n : Nat) (done : List Char) (gap : Gap) :
    List Char → Option Plain
  | [] => some ⟨done.reverse, n, gap.isLong⟩
  | c :: cs =>
    if isBreak c then readPlain flow indent 0 (n + 1) done (gap.addBreak c) cs
    else if isGap c then
      if gap.isLong && column < indent && c == '\t' then none
      else readPlain flow indent (column + 1) (n + 1) done (gap.addBlank c) cs
    else if !gap.isNone && endsPlainAfterGap flow indent column c cs then
      some ⟨done.reverse, n, gap.isLong⟩
    else if isBadColon flow c cs then none
    else if endsPlain flow c cs then some ⟨done.reverse, n, gap.isLong⟩
    else readPlain flow indent (column + 1) (n + 1) (c :: (gap.folded ++ done)) .none cs

/-! ## Blocks of text -/

/-- What becomes of the ends of lines behind the last line with text. -/
inductive Chomping where
  | strip
  | clip
  | keep
deriving Repr, DecidableEq

/-- The line that begins a block: how it is chomped, by how much it is indented if that is said,
and how many characters were taken. -/
structure BlockHeader where
  chomping : Chomping
  indent : Option Nat
  taken : Nat
deriving Repr, DecidableEq

def chomping? (c : Char) : Option Chomping :=
  if c == '+' then some .keep else if c == '-' then some .strip else none

/-- Signs of chomping and indentation, each at most once. -/
def readIndicators : List Char → Option BlockHeader
  | [] => some ⟨.clip, none, 0⟩
  | c :: cs =>
    match chomping? c with
    | some chomping =>
      match cs with
      | d :: _ =>
        if d == '0' then none
        else if d.isDigit then some ⟨chomping, some (d.toNat - 48), 2⟩
        else some ⟨chomping, none, 1⟩
      | [] => some ⟨chomping, none, 1⟩
    | none =>
      if c == '0' then none
      else if c.isDigit then
        let indent := some (c.toNat - 48)
        match cs.head?.bind chomping? with
        | some chomping => some ⟨chomping, indent, 2⟩
        | none => some ⟨.clip, indent, 1⟩
      else some ⟨.clip, none, 0⟩

/-- Blanks and a comment at the end of a line: how many characters they are with the end of the
line, or nothing if there is more on the line. -/
def restOfLine (cs : List Char) : Option Nat :=
  let blanks := (cs.takeWhile isGap).length
  let rest := cs.drop blanks
  let comment := if rest.head? = some '#' then (rest.takeWhile (!isBreak ·)).length else 0
  match rest.drop comment with
  | [] => some (blanks + comment)
  | c :: _ => if isBreak c then some (blanks + comment + 1) else none

/-- The first line of a block. -/
def readBlockHeader (cs : List Char) : Option BlockHeader :=
  match readIndicators cs with
  | none => none
  | some h => (fun k => { h with taken := h.taken + k }) <$> restOfLine (cs.drop h.taken)

/-- Empty lines, their ends last first, and the indentation of the line after them. -/
structure Indentation where
  breaks : List Char
  column : Nat
  /-- The most blanks that begin one of the lines. -/
  widest : Nat
  taken : Nat
deriving Repr, DecidableEq

/-- Reads empty lines and indentation; with an `indent` no more blanks than that are read. -/
def readIndentation (indent : Option Nat) (r : Indentation) : List Char → Option Indentation
  | [] => some { r with widest := max r.widest r.column }
  | c :: cs =>
    let inside := indent.all (r.column < ·)
    if inside && c == ' ' then
      readIndentation indent { r with column := r.column + 1, taken := r.taken + 1 } cs
    else if inside && c == '\t' then none
    else
      let r := { r with widest := max r.widest r.column }
      if isBreak c then
        readIndentation indent
          { r with breaks := c :: r.breaks, column := 0, taken := r.taken + 1 } cs
      else some r

/-- The text of a block so far, last first. -/
structure BlockText where
  done : List Char
  /-- The end of the last line with text. -/
  lineEnd : Option Char
  /-- The ends of the empty lines after it, last first. -/
  breaks : List Char
  /-- The last line with text began with white space. -/
  isSpaced : Bool
deriving Repr, DecidableEq

/-- The text with the ends of lines that come before a line. In folded blocks a single line feed is
a blank and before others it is dropped, unless one of the lines around it begins with white
space. -/
def BlockText.joined (t : BlockText) (literal spaced : Bool) : List Char :=
  if !literal && t.lineEnd = some '\n' && !t.isSpaced && !spaced then
    (if t.breaks.isEmpty then [' '] else t.breaks) ++ t.done
  else t.breaks ++ t.lineEnd.toList ++ t.done

/-- The whole text of a block, chomped. -/
def BlockText.chomped (t : BlockText) (c : Chomping) : List Char :=
  (match c with
    | .strip => t.done
    | .clip => t.lineEnd.toList ++ t.done
    | .keep => t.breaks ++ t.lineEnd.toList ++ t.done).reverse

/-- Reads lines as long as they are indented by `indent` blanks, which precede the text. -/
def readLines (literal : Bool) (indent n : Nat) (t : BlockText) :
    List Char → Option (BlockText × Nat)
  | [] => some (t, n)
  | c :: cs =>
    let spaced := isGap c
    let line := cs.takeWhile (!isBreak ·)
    let rest := cs.drop line.length
    let done := (c :: line).reverse ++ t.joined literal spaced
    let start : Indentation := ⟨[], 0, 0, (rest.take 1).length⟩
    match readIndentation (some indent) start (rest.drop 1) with
    | none => none
    | some i =>
      let t : BlockText := ⟨done, rest.head?, i.breaks, spaced⟩
      let n := n + 1 + line.length + i.taken
      if i.column = indent then readLines literal indent n t (rest.drop i.taken) else some (t, n)
termination_by cs => cs.length
decreasing_by simp only [List.length_drop, List.length_cons]; omega

/-- Reads a block of text inside of blocks that are indented by `outer`. -/
def readBlock (literal : Bool) (outer : Option Nat) (cs : List Char) :
    Option (List Char × Nat) :=
  match readBlockHeader cs with
  | none => none
  | some h =>
    let said := h.indent.map (outer.getD 0 + ·)
    match readIndentation said ⟨[], 0, 0, h.taken⟩ (cs.drop h.taken) with
    | none => none
    | some i =>
      let least := outer.elim 1 (· + 1)
      let indent := said.getD (max i.widest least)
      let t : BlockText := ⟨[], none, i.breaks, false⟩
      if i.column = indent then
        (fun (t, n) => (t.chomped h.chomping, n)) <$>
          readLines literal indent i.taken t (cs.drop i.taken)
      else some (t.chomped h.chomping, i.taken)

end StyleSieve.Yaml
