import StyleSieve.Text.Alphabetic
import StyleSieve.Text.Category

/-!
# Word characters

The characters that make up words: letters, marks, digits, connectors and joiners.
-/

namespace StyleSieve.Text

/-- Characters that are joined to their neighbours without being seen. -/
def joiners : Ranges := [(0x200C, 0x200D)]

/-- Word characters of ASCII. -/
def isAsciiWord (c : Char) : Bool := c.isAlphanum || c == '_'

/-- Word characters of every script. -/
def isWord (c : Char) : Bool :=
  if c.toNat < 0x80 then isAsciiWord c
  else alphabetic.has c || isMark c || Category.decimal.has c || Category.connector.has c
    || joiners.has c

end StyleSieve.Text
