/-
# `SourceTokens.Text.Property.WhiteSpace` — the Unicode property `White_Space`

The class `\s` of a pattern.  It is wider than the blanks of the token grammar,
which are five ASCII characters.
-/
import SourceTokens.Text.Property

namespace SourceTokens.Text

/-- Where the property begins and ends to hold, alternately. -/
def whiteSpaceBounds : List Nat := [
  0x9, 0xe, 0x20, 0x21, 0x85, 0x86, 0xa0, 0xa1, 0x1680, 0x1681, 0x2000,
  0x200b, 0x2028, 0x202a, 0x202f, 0x2030, 0x205f, 0x2060, 0x3000, 0x3001]

/-- A character of `White_Space`. -/
def isWhiteSpace (c : Char) : Bool := inside whiteSpaceBounds c.toNat

end SourceTokens.Text
