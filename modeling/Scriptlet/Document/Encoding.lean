import Scriptlet.Text.Glyph

/-!
# Encoding: the characters of a settings file

A settings file is UTF-8 text unless its first two bytes are a mark of UTF-16. A mark is not part of
the text. A file with a malformed sequence, or with a character that files may not hold, has no
characters at all.
-/

namespace Scriptlet.Document

/-- The characters that a file may hold: of the controls only tabs and line breaks. -/
def isAllowed (c : Char) : Bool :=
  let n := c.toNat
  n == 9 || n == 10 || n == 13 || (0x20 ≤ n && n ≤ 0x7E) || n == 0x85 ||
    (0xA0 ≤ n && n ≤ 0xFFFD) || 0x10000 ≤ n

/-- The units of UTF-16 text, high bytes first; none if a byte is left over. -/
def units : Bytes → Option (List Nat)
  | [] => some []
  | [_] => none
  | high :: low :: rest => (units rest).map ((high.toNat * 256 + low.toNat) :: ·)

/-- The bytes of each unit in the other order. -/
def swapped : Bytes → Bytes
  | a :: b :: rest => b :: a :: swapped rest
  | s => s

/-- A unit that starts a pair. -/
def isHigh (u : Nat) : Bool := 0xD800 ≤ u && u ≤ 0xDBFF

/-- A unit that ends a pair. -/
def isLow (u : Nat) : Bool := 0xDC00 ≤ u && u ≤ 0xDFFF

/-- The characters of UTF-16 units, where two units may stand for one character. -/
def ofUnits : List Nat → Option (List Char)
  | [] => some []
  | [u] => if isHigh u || isLow u then none else some [Char.ofNat u]
  | u :: v :: rest =>
    if isHigh u then
      if isLow v then
        (ofUnits rest).map (Char.ofNat (0x10000 + (u - 0xD800) * 0x400 + (v - 0xDC00)) :: ·)
      else none
    else if isLow u then none
    else (ofUnits (v :: rest)).map (Char.ofNat u :: ·)

/-- The characters of UTF-8 text. -/
def ofUtf8 (s : Bytes) : Option (List Char) :=
  let gs := glyphs s
  if gs.all (fun g => !g.isMalformed) then some (gs.map Glyph.char) else none

/-- The characters of a file, whether or not it may hold them. -/
def decoded : Bytes → Option (List Char)
  | 0xFE :: 0xFF :: rest => (units rest).bind ofUnits
  | 0xFF :: 0xFE :: rest => (units (swapped rest)).bind ofUnits
  | 0xEF :: 0xBB :: 0xBF :: rest => ofUtf8 rest
  | s => ofUtf8 s

/-- The characters of a file. -/
def characters? (s : Bytes) : Option (List Char) := (decoded s).filter (·.all isAllowed)

/-- The UTF-8 text of characters. -/
def encoded (cs : List Char) : Bytes := cs.flatMap encodeChar

end Scriptlet.Document
