import StyleSieve.Css.Chars
import StyleSieve.Css.Token
import StyleSieve.Text.Ascii
import StyleSieve.Text.Hex

/-!
# Lexemes

A text is cut into lexemes, each a token with the raw text it was read from. Every scanner answers
with what it read and the number of characters it took; `lexemes_raw` says that the raw texts of the
lexemes make up the text again, so no character is lost or read twice.
-/

namespace StyleSieve.Css

/-- A token with the text it was read from. -/
structure Lexeme where
  token : Token
  raw : List Char
deriving Repr, DecidableEq

/-! ## Escapes and names -/

/-- Characters of a line break; a carriage return takes a line feed with it. -/
def newlineLength : List Char → Nat
  | '\r' :: '\n' :: _ => 2
  | c :: _ => if isNewline c then 1 else 0
  | [] => 0

/-- Characters of the one space that ends a numeric escape. -/
def spaceLength (cs : List Char) : Nat :=
  if startsWith isNewline cs then newlineLength cs
  else if startsWith isSpace cs then 1 else 0

/-- The character with a number; the replacement character if there is none or it is null. -/
def scalar (n : Nat) : Char :=
  if n ≠ 0 ∧ n.isValidChar then Char.ofNat n else replacement

/-- The character that an escape stands for; the text begins after the backslash. -/
def readEscape : List Char → Char × Nat
  | [] => (replacement, 0)
  | c :: cs =>
    let digits := ((c :: cs).take 6).takeWhile Text.isHexDigit
    if digits.isEmpty then (shownChar c, 1)
    else
      (scalar (Text.hexNumber digits), digits.length + spaceLength ((c :: cs).drop digits.length))

/-- One character of a name: itself, or an escape. The number counts the characters after `c`. -/
def readNameChar (c : Char) (cs : List Char) : Option (Char × Nat) :=
  if c == '\\' then
    if startsWith isNewline cs then none else some (readEscape cs)
  else if isNameChar c then some (shownChar c, 0)
  else none

/-- The longest name at the head of a text. -/
def readName : List Char → List Char × Nat
  | [] => ([], 0)
  | c :: cs =>
    match readNameChar c cs with
    | none => ([], 0)
    | some (value, n) =>
      let rest := readName (cs.drop n)
      (value :: rest.1, n + 1 + rest.2)
termination_by cs => cs.length
decreasing_by simp only [List.length_drop, List.length_cons]; omega

/-- An identifier begins here. A hyphen counts if a name character, a hyphen or any backslash
follows it. -/
def startsIdent : List Char → Bool
  | '-' :: c :: _ => isNameStart c || c == '-' || c == '\\'
  | '\\' :: cs => !startsWith isNewline cs
  | c :: _ => isNameStart c
  | [] => false

/-! ## Strings, comments and addresses -/

/-- The rest of a quoted string after its opening quote: its value, the characters taken, and
whether its line ended first. -/
def readString (quote : Char) : List Char → List Char × Nat × Bool
  | [] => ([], 0, false)
  | c :: cs =>
    if c == quote then ([], 1, false)
    else if isNewline c then ([], 0, true)
    else if c == '\\' then
      if cs.isEmpty then ([], 1, false)
      else if startsWith isNewline cs then
        let n := newlineLength cs
        let rest := readString quote (cs.drop n)
        (rest.1, n + 1 + rest.2.1, rest.2.2)
      else
        let escape := readEscape cs
        let rest := readString quote (cs.drop escape.2)
        (escape.1 :: rest.1, escape.2 + 1 + rest.2.1, rest.2.2)
    else
      let rest := readString quote cs
      (shownChar c :: rest.1, 1 + rest.2.1, rest.2.2)
termination_by cs => cs.length
decreasing_by all_goals (simp; try omega)

/-- The rest of a comment after its opening mark: its text and the characters taken. -/
def readComment : List Char → List Char × Nat
  | '*' :: '/' :: _ => ([], 2)
  | c :: cs => let rest := readComment cs; (c :: rest.1, 1 + rest.2)
  | [] => ([], 0)

/-- Characters of a malformed address up to the bracket that closes it. -/
def malformedLength : List Char → Nat
  | [] => 0
  | ')' :: _ => 0
  | '\\' :: ')' :: cs => 2 + malformedLength cs
  | '\\' :: '\\' :: cs => 2 + malformedLength cs
  | _ :: cs => 1 + malformedLength cs

/-- The body of an unquoted address: its value, or `none` where it is malformed after the counted
characters. -/
def readAddress : List Char → Option (List Char) × Nat
  | [] => (some [], 0)
  | c :: cs =>
    if isSpace c then
      let blank := (cs.takeWhile isSpace).length
      match cs.drop blank with
      | [] => (some [], blank + 1)
      | ')' :: _ => (some [], blank + 2)
      | _ :: _ => (none, blank + 2)
    else if c == ')' then (some [], 1)
    else if isNonPrinting c || c == '"' || c == '\'' || c == '(' then (none, 1)
    else if c == '\\' then
      if startsWith isNewline cs then (none, 1)
      else
        let escape := readEscape cs
        let rest := readAddress (cs.drop escape.2)
        (rest.1.map (escape.1 :: ·), escape.2 + 1 + rest.2)
    else
      let rest := readAddress cs
      (rest.1.map (shownChar c :: ·), 1 + rest.2)
termination_by cs => cs.length
decreasing_by all_goals (simp; try omega)

/-- The token after the name `url` and its bracket. A quoted address is left to be read as the
argument of a function. -/
def readUrl (name : List Char) (cs : List Char) : Token × Nat :=
  let blank := (cs.takeWhile isSpace).length
  let body := cs.drop blank
  match body with
  | [] => (.url "", blank)
  | '"' :: _ => (.function (String.ofList name), 0)
  | '\'' :: _ => (.function (String.ofList name), 0)
  | _ =>
    match readAddress body with
    | (some value, n) => (.url (String.ofList value), blank + n)
    | (none, n) =>
      let more := malformedLength (body.drop n)
      let close := if (body.drop (n + more)).isEmpty then 0 else 1
      (.badUrl (String.ofList (body.take (n + more))), blank + n + more + close)

/-- The token that begins with a name. -/
def readIdentLike (cs : List Char) : Token × Nat :=
  let name := readName cs
  match cs.drop name.2 with
  | '(' :: rest =>
    if Text.sameAscii (String.ofList name.1) "url" then
      let url := readUrl name.1 rest
      (url.1, name.2 + 1 + url.2)
    else (.function (String.ofList name.1), name.2 + 1)
  | _ => (.ident (String.ofList name.1), name.2)

/-! ## Numbers -/

def digitRun (cs : List Char) : DigitRun :=
  (cs.takeWhile Char.isDigit).map fun c => c.toNat - 48

/-- A sign at the head of a text; `some true` for a minus. -/
def readSign : List Char → Option Bool
  | '-' :: _ => some true
  | '+' :: _ => some false
  | _ => none

def signLength (sign : Option Bool) : Nat := if sign.isSome then 1 else 0

/-- Digits, or a point followed by a digit. -/
def startsDigits : List Char → Bool
  | '.' :: cs => startsWith Char.isDigit cs
  | cs => startsWith Char.isDigit cs

/-- A number begins here. -/
def startsNumber (cs : List Char) : Bool := startsDigits (cs.drop (signLength (readSign cs)))

/-- A fraction with its point, if one begins here. -/
def readFraction : List Char → Option DigitRun
  | '.' :: cs => if startsWith Char.isDigit cs then some (digitRun cs) else none
  | _ => none

def fractionLength (fraction : Option DigitRun) : Nat :=
  fraction.elim 0 fun ds => ds.length + 1

/-- An exponent with its letter, if one begins here. -/
def readExponent : List Char → Option (Option Bool × DigitRun)
  | c :: cs =>
    if c == 'e' || c == 'E' then
      let sign := readSign cs
      let ds := digitRun (cs.drop (signLength sign))
      if ds.isEmpty then none else some (sign, ds)
    else none
  | [] => none

def exponentLength (exponent : Option (Option Bool × DigitRun)) : Nat :=
  exponent.elim 0 fun (sign, ds) => 1 + signLength sign + ds.length

/-- The number at the head of a text. -/
def readNumeral (cs : List Char) : Numeral × Nat :=
  let sign := readSign cs
  let s := signLength sign
  let whole := digitRun (cs.drop s)
  let w := s + whole.length
  let fraction := readFraction (cs.drop w)
  let f := w + fractionLength fraction
  let exponent := readExponent (cs.drop f)
  (⟨sign, whole, fraction, exponent⟩, f + exponentLength exponent)

/-- The token that begins with a number. -/
def readNumeric (cs : List Char) : Token × Nat :=
  let numeral := readNumeral cs
  let rest := cs.drop numeral.2
  if startsWith (· == '%') rest then (.percentage numeral.1, numeral.2 + 1)
  else if startsIdent rest then
    let unit := readName rest
    (.dimension numeral.1 (String.ofList unit.1), numeral.2 + unit.2)
  else (.number numeral.1, numeral.2)

/-! ## Lexemes -/

/-- A sign with an equals sign after it, or the sign alone. -/
def readMatch (c : Char) (token : Token) : List Char → Token × Nat
  | '=' :: _ => (token, 1)
  | _ => (.delim c, 0)

/-- The token after a number sign. -/
def readHash (cs : List Char) : Token × Nat :=
  let name := readName cs
  if startsIdent cs then (.idHash (String.ofList name.1), name.2)
  else if startsWith (fun c => c.isDigit || c == '-') cs then
    (.hash (String.ofList name.1), name.2)
  else (.delim '#', 0)

/-- The token of a mark that begins neither a name nor a number nor a string. -/
def readMark (c : Char) (cs : List Char) : Token × Nat :=
  match c with
  | '#' => readHash cs
  | '(' => (.opening .paren, 0)
  | ')' => (.closing .paren, 0)
  | '[' => (.opening .square, 0)
  | ']' => (.closing .square, 0)
  | '{' => (.opening .curly, 0)
  | '}' => (.closing .curly, 0)
  | ',' => (.comma, 0)
  | ':' => (.colon, 0)
  | ';' => (.semicolon, 0)
  | '$' => readMatch c .endMatch cs
  | '*' => readMatch c .substringMatch cs
  | '^' => readMatch c .startMatch cs
  | '|' => readMatch c .dashMatch cs
  | '~' => readMatch c .includeMatch cs
  | '<' => if cs.take 3 = ['!', '-', '-'] then (.commentOpen, 3) else (.delim c, 0)
  | '/' =>
    match cs with
    | '*' :: rest =>
      let body := readComment rest
      (.comment (String.ofList body.1), 1 + body.2)
    | _ => (.delim c, 0)
  | '@' =>
    if startsIdent cs then
      let name := readName cs
      (.atKeyword (String.ofList name.1), name.2)
    else (.delim c, 0)
  | _ => (.delim c, 0)

/-- The token that begins with `c`, and how many characters of `cs` belong to it too. -/
def readToken (c : Char) (cs : List Char) : Token × Nat :=
  if isSpace c then
    let more := cs.takeWhile isSpace
    (.whitespace (String.ofList (c :: more)), more.length)
  else if c == '"' || c == '\'' then
    let body := readString c cs
    let value := String.ofList body.1
    (if body.2.2 then .badString value else .quoted value, body.2.1)
  else if startsNumber (c :: cs) then
    let numeric := readNumeric (c :: cs)
    (numeric.1, numeric.2 - 1)
  else if c == '-' && cs.take 2 = ['-', '>'] then (.commentClose, 2)
  else if startsIdent (c :: cs) then
    let ident := readIdentLike (c :: cs)
    (ident.1, ident.2 - 1)
  else readMark c cs

/-- The lexemes of a text. -/
def lexemes : List Char → List Lexeme
  | [] => []
  | c :: cs =>
    let token := readToken c cs
    ⟨token.1, c :: cs.take token.2⟩ :: lexemes (cs.drop token.2)
termination_by cs => cs.length
decreasing_by simp only [List.length_drop, List.length_cons]; omega

@[simp] theorem lexemes_nil : lexemes [] = [] := by simp [lexemes]

theorem lexemes_cons (c : Char) (cs : List Char) :
    lexemes (c :: cs) =
      ⟨(readToken c cs).1, c :: cs.take (readToken c cs).2⟩ ::
        lexemes (cs.drop (readToken c cs).2) := by
  rw [lexemes]

/-- The raw texts of the lexemes make up the text. -/
theorem lexemes_raw (cs : List Char) : (lexemes cs).flatMap Lexeme.raw = cs := by
  fun_induction lexemes cs with
  | case1 => rfl
  | case2 c cs token ih => simp [ih]

end StyleSieve.Css
