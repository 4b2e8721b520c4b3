/-!
# ASCII letter case

Keywords are compared up to the case of ASCII letters; other characters are compared as they are.
-/

namespace StyleSieve.Text

/-- A text with its ASCII letters in lower case. -/
def lowerAscii (s : String) : String := String.ofList (s.toList.map Char.toLower)

/-- Two texts agree up to the case of ASCII letters. -/
def sameAscii (s t : String) : Bool := lowerAscii s == lowerAscii t

theorem sameAscii_iff {s t : String} : sameAscii s t = true ↔ lowerAscii s = lowerAscii t := by
  simp [sameAscii]

end StyleSieve.Text
