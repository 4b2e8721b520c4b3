/-!
# Characters of a stylesheet

The classes of characters by which a stylesheet is cut into tokens.
-/

namespace StyleSieve.Css

def isNewline (c : Char) : Bool := c == '\n' || c == '\r' || c == '\x0c'

def isSpace (c : Char) : Bool := c == ' ' || c == '\t' || isNewline c

/-- Characters above ASCII, and the null character, which stands for the replacement character. -/
def isForeign (c : Char) : Bool := 0x80 ≤ c.toNat || c == '\x00'

/-- Characters that may begin a name. -/
def isNameStart (c : Char) : Bool := c.isAlpha || c == '_' || isForeign c

/-- Characters that may stand in a name. -/
def isNameChar (c : Char) : Bool := isNameStart c || c.isDigit || c == '-'

/-- Control codes that may not stand in an unquoted address. -/
def isNonPrinting (c : Char) : Bool :=
  let n := c.toNat
  (1 ≤ n && n ≤ 8) || n == 0xB || (0xE ≤ n && n ≤ 0x1F) || n == 0x7F

/-- The character that stands for one that cannot be written. -/
def replacement : Char := Char.ofNat 0xFFFD

/-- The null character becomes the replacement character. -/
def shownChar (c : Char) : Char := if c == '\x00' then replacement else c

/-- The first character, if any, is of the class. -/
def startsWith (p : Char → Bool) : List Char → Bool
  | [] => false
  | c :: _ => p c

@[simp] theorem startsWith_nil (p : Char → Bool) : startsWith p [] = false := rfl

@[simp] theorem startsWith_cons (p : Char → Bool) (c : Char) (cs : List Char) :
    startsWith p (c :: cs) = p c := rfl

theorem isSpace_of_isNewline {c : Char} (h : isNewline c = true) : isSpace c = true := by
  simp [isSpace, h]

theorem isNameChar_of_isNameStart {c : Char} (h : isNameStart c = true) : isNameChar c = true := by
  simp [isNameChar, h]

end StyleSieve.Css
