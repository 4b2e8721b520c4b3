import StyleSieve.Text.Category.Letter
import StyleSieve.Text.Category.Mark
import StyleSieve.Text.Category.Number
import StyleSieve.Text.Category.Punctuation
import StyleSieve.Text.Category.Symbol
import StyleSieve.Text.Category.Separator
import StyleSieve.Text.Category.Other

/-!
# General categories

The classes of characters that several general categories make up together.
-/

namespace StyleSieve.Text

open Category

/-- ASCII letters. -/
def isAsciiLetter (c : Char) : Bool := c.isAlpha

/-- ASCII digits. -/
def isAsciiDigit (c : Char) : Bool := c.isDigit

/-- Letters of every script. -/
def isLetter (c : Char) : Bool :=
  if c.toNat < 0x80 then isAsciiLetter c
  else lowercase.has c || uppercase.has c || otherLetter.has c || modifier.has c || titlecase.has c

/-- Digits and other characters that stand for numbers. -/
def isNumeric (c : Char) : Bool :=
  if c.toNat < 0x80 then isAsciiDigit c
  else decimal.has c || letterNumber.has c || otherNumber.has c

def isMark (c : Char) : Bool := nonspacing.has c || spacing.has c || enclosing.has c

def isPunctuation (c : Char) : Bool :=
  otherPunctuation.has c || dash.has c || opening.has c || closing.has c || connector.has c
    || initialQuote.has c || finalQuote.has c

def isSymbol (c : Char) : Bool :=
  otherSymbol.has c || mathSymbol.has c || modifierSymbol.has c || currency.has c

/-- Characters that leave a mark on paper, and the plain space. -/
def isPrintable (c : Char) : Bool :=
  if c.toNat < 0x80 then 0x20 ≤ c.toNat && c.toNat < 0x7F
  else isLetter c || isMark c || isNumeric c || isPunctuation c || isSymbol c

end StyleSieve.Text
