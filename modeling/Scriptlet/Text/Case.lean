import Scriptlet.Text.Glyph

/-!
# Case: letters whose lower case is an ASCII letter

Besides the ASCII capitals there are two: the capital I with a dot above and the Kelvin sign.
-/

namespace Scriptlet

/-- The lower-case form of a character, where that is an ASCII letter. -/
def foldChar (c : Char) : Char :=
  if 'A' ≤ c && c ≤ 'Z' then Char.ofNat (c.toNat + 32)
  else if c = '\u0130' then 'i'
  else if c = '\u212A' then 'k'
  else c

/-- The text with each character in its ASCII lower-case form, where it has one. -/
def foldCase (s : Bytes) : Bytes := (glyphs s).flatMap fun g => encodeChar (foldChar g.char)

end Scriptlet
