import Scriptlet.Text.Glyph

/-!
# Blank: the characters that separate words

The characters with the Unicode property White_Space.
-/

namespace Scriptlet

/-- A white space character: the ASCII ones, the next line character and the spaces of other
scripts. -/
def isBlank (c : Char) : Bool :=
  let n := c.toNat
  (9 ≤ n && n ≤ 13) || n == 32 || n == 0x85 || n == 0xA0 || n == 0x1680 ||
    (0x2000 ≤ n && n ≤ 0x200A) || n == 0x2028 || n == 0x2029 || n == 0x202F || n == 0x205F ||
    n == 0x3000

/-- The text without the blanks at its two ends. -/
def trimBlanks (s : Bytes) : Bytes := trimChars isBlank s

end Scriptlet
