import Scriptlet.Text.Glyph
import Scriptlet.Text.Printable

/-!
# Quoted: texts in quotes, with what cannot be shown escaped

Printable characters stand for themselves. The quote and the backslash are escaped by a backslash,
seven control characters have letters of their own, and everything else is written by its number:
`\xNN` for other control characters and for malformed bytes, `\uNNNN` and `\UNNNNNNNN` above ASCII.
-/

namespace Scriptlet

/-- The letter that stands for a control character after a backslash. -/
def controlLetter (c : Char) : Option Char :=
  match c.toNat with
  | 7 => some 'a'
  | 8 => some 'b'
  | 9 => some 't'
  | 10 => some 'n'
  | 11 => some 'v'
  | 12 => some 'f'
  | 13 => some 'r'
  | _ => none

/-- One character inside quotes of the kind `quote`. -/
def quoteChar (quote c : Char) : Bytes :=
  if c == quote || c == '\\' then [byte '\\', byte c]
  else if isPrintable c then encodeChar c
  else
    match controlLetter c with
    | some letter => [byte '\\', byte letter]
    | none =>
      if c.toNat < 32 || c.toNat == 127 then utf8 "\\x" ++ Bytes.hex 2 c.toNat
      else if c.toNat < 0x10000 then utf8 "\\u" ++ Bytes.hex 4 c.toNat
      else utf8 "\\U" ++ Bytes.hex 8 c.toNat

/-- One glyph inside double quotes: malformed bytes are shown by their value. -/
def quoteGlyph (g : Glyph) : Bytes :=
  if g.isMalformed then utf8 "\\x" ++ Bytes.hex 2 ((g.bytes.headD 0).toNat)
  else quoteChar '"' g.char

/-- A text in double quotes. -/
def quoted (s : Bytes) : Bytes :=
  byte '"' :: ((glyphs s).flatMap quoteGlyph ++ [byte '"'])

/-- A single character in single quotes. -/
def quotedChar (c : Char) : Bytes := byte '\'' :: (quoteChar '\'' c ++ [byte '\''])

end Scriptlet
