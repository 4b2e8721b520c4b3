import StyleSieve.Text.Ranges

/-!
# Separators

The general categories Zs, Zl, Zp of Unicode 16, one table each.
-/

namespace StyleSieve.Text.Category

/-- Spaces. -/
def space : Ranges := [
  (0x20, 0x20), (0xA0, 0xA0), (0x1680, 0x1680), (0x2000, 0x200A), (0x202F, 0x202F),
  (0x205F, 0x205F), (0x3000, 0x3000)]

/-- The line separator. -/
def lineSeparator : Ranges := [
  (0x2028, 0x2028)]

/-- The paragraph separator. -/
def paragraphSeparator : Ranges := [
  (0x2029, 0x2029)]

end StyleSieve.Text.Category
