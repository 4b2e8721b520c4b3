import StyleSieve.Text.Category
import StyleSieve.Text.Extending

/-!
# Quoted text

The form in which messages show a text: between double quotes, with escapes for quotes,
backslashes, control codes and whatever does not print on its own.
-/

namespace StyleSieve.Text

/-- A code point by its number in lower case hexadecimal digits. -/
def numbered (c : Char) : String :=
  "\\u\x7b" ++ String.ofList (Nat.toDigits 16 c.toNat) ++ "\x7d"

/-- One character of a text quoted by `mark`. -/
def escaped (mark : Char) (c : Char) : String :=
  if c = '\x00' then "\\0"
  else if c = '\t' then "\\t"
  else if c = '\n' then "\\n"
  else if c = '\r' then "\\r"
  else if c = '\\' then "\\\\"
  else if c = mark then String.ofList ['\\', c]
  else if extending.has c then numbered c
  else if isPrintable c then String.ofList [c]
  else numbered c

/-- A text between double quotes. -/
def quoted (s : String) : String :=
  "\"" ++ String.join (s.toList.map (escaped '"')) ++ "\""

/-- A character between single quotes. -/
def quotedChar (c : Char) : String := "'" ++ escaped '\'' c ++ "'"

end StyleSieve.Text
