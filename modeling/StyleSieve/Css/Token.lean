import StyleSieve.Css.Numeral
import StyleSieve.Text.Quoted

/-!
# Tokens

The tokens of a stylesheet, with names and strings after the resolution of escapes, and the text by
which messages show a token.
-/

namespace StyleSieve.Css

/-- The three kinds of brackets. -/
inductive Bracket where
  | paren
  | square
  | curly
deriving Repr, DecidableEq

inductive Token where
  | ident (name : String)
  | atKeyword (name : String)
  /-- A hash whose name could not be an identifier. -/
  | hash (name : String)
  | idHash (name : String)
  | quoted (value : String)
  | url (value : String)
  | delim (c : Char)
  | number (value : Numeral)
  | percentage (value : Numeral)
  | dimension (value : Numeral) (unit : String)
  | whitespace (text : String)
  | comment (text : String)
  | colon
  | semicolon
  | comma
  /-- The operator `~=`. -/
  | includeMatch
  /-- The operator `|=`. -/
  | dashMatch
  /-- The operator `^=`. -/
  | startMatch
  /-- The operator `$=`. -/
  | endMatch
  /-- The operator `*=`. -/
  | substringMatch
  | commentOpen
  | commentClose
  /-- A name with the bracket that opens its arguments. -/
  | function (name : String)
  | opening (bracket : Bracket)
  | closing (bracket : Bracket)
  | badUrl (text : String)
  /-- A string cut off by the end of its line. -/
  | badString (value : String)
deriving Repr, DecidableEq

namespace Token

/-- The bracket that a token leaves open. -/
def opens : Token → Option Bracket
  | function _ => some .paren
  | opening b => some b
  | _ => none

/-- The bracket that a token closes. -/
def closes : Token → Option Bracket
  | closing b => some b
  | _ => none

def isWhitespace : Token → Bool
  | whitespace _ => true
  | _ => false

def isComment : Token → Bool
  | comment _ => true
  | _ => false

def bracketText : Bracket → String
  | .paren => "Parenthesis"
  | .square => "SquareBracket"
  | .curly => "CurlyBracket"

def boolText (b : Bool) : String := if b then "true" else "false"

/-- A token with one text inside. -/
def tagged (tag text : String) : String := tag ++ "(" ++ Text.quoted text ++ ")"

/-- A numeric token, whose value is shown under `field`. -/
def numericText (tag field : String) (shown : String) (n : Numeral) (more : String) : String :=
  let int := match n.integer with
    | some i => "Some(" ++ toString i ++ ")"
    | none => "None"
  tag ++ " \x7b has_sign: " ++ boolText n.sign.isSome ++ ", " ++ field ++ ": " ++ shown
    ++ ", int_value: " ++ int ++ more ++ " \x7d"

/-- The text by which messages show a token. -/
def describe : Token → String
  | ident name => tagged "Ident" name
  | atKeyword name => tagged "AtKeyword" name
  | hash name => tagged "Hash" name
  | idHash name => tagged "IDHash" name
  | quoted value => tagged "QuotedString" value
  | url value => tagged "UnquotedUrl" value
  | delim c => "Delim(" ++ Text.quotedChar c ++ ")"
  | number n => numericText "Number" "value" (Numeral.shown n.value) n ""
  | percentage n =>
    numericText "Percentage" "unit_value" (Numeral.shown (n.value / 100.0)) n ""
  | dimension n unit =>
    numericText "Dimension" "value" (Numeral.shown n.value) n (", unit: " ++ Text.quoted unit)
  | whitespace text => tagged "WhiteSpace" text
  | comment text => tagged "Comment" text
  | colon => "Colon"
  | semicolon => "Semicolon"
  | comma => "Comma"
  | includeMatch => "IncludeMatch"
  | dashMatch => "DashMatch"
  | startMatch => "PrefixMatch"
  | endMatch => "SuffixMatch"
  | substringMatch => "SubstringMatch"
  | commentOpen => "CDO"
  | commentClose => "CDC"
  | function name => tagged "Function" name
  | opening b => bracketText b ++ "Block"
  | closing b => "Close" ++ bracketText b
  | badUrl text => tagged "BadUrl" text
  | badString value => tagged "BadString" value

end Token

end StyleSieve.Css
