import Scriptlet.Text.Glyph

/-!
# Payload: JSON documents

Documents are written in one line without blanks. Strings escape quotes, backslashes and control
characters, and also what could be mistaken for markup or for a line end by a browser.
-/

namespace Scriptlet

/-- A JSON document. Numbers are kept as they are written. -/
inductive Payload where
  | null
  | bool (b : Bool)
  | number (text : Bytes)
  | string (s : Bytes)
  | array (items : List Payload)
  | object (fields : List (Bytes × Payload))
deriving Repr, Inhabited

namespace Payload

/-- A whole number. -/
def int (i : Int) : Payload := .number (signedDecimal i)

/-- A string given by a literal. -/
def literal (s : String) : Payload := .string (utf8 s)

/-- The control characters with an escape of one letter. -/
def shortEscapes : List (Char × Char) :=
  [('\x08', 'b'), ('\x0c', 'f'), ('\n', 'n'), ('\r', 'r'), ('\t', 't'), ('"', '"'), ('\\', '\\')]

/-- The characters that are not control characters and yet are written by their code. -/
def codedChars : List Char := ['<', '>', '&', '\u2028', '\u2029']

/-- A character by its code. -/
def coded (n : Nat) : Bytes := utf8 "\\u" ++ Bytes.hex 4 n

/-- A glyph within a string; malformed bytes are written as the code of U+FFFD. -/
def escaped (g : Glyph) : Bytes :=
  if g.isMalformed then coded 0xFFFD
  else
    match shortEscapes.lookup g.char with
    | some letter => [byte '\\', byte letter]
    | none =>
      if g.char.toNat < 0x20 || codedChars.contains g.char then coded g.char.toNat else g.bytes

/-- A string in quotes. -/
def renderString (s : Bytes) : Bytes :=
  byte '"' :: ((glyphs s).flatMap escaped ++ [byte '"'])

mutual

/-- A document as it is written. -/
def render : Payload → Bytes
  | .null => utf8 "null"
  | .bool true => utf8 "true"
  | .bool false => utf8 "false"
  | .number text => text
  | .string s => renderString s
  | .array items => byte '[' :: (renderItems items ++ [byte ']'])
  | .object fields => byte '\x7b' :: (renderFields fields ++ [byte '\x7d'])

/-- The items of an array, separated by commas. -/
def renderItems : List Payload → Bytes
  | [] => []
  | [p] => render p
  | p :: q :: rest => render p ++ byte ',' :: renderItems (q :: rest)

/-- The fields of an object, separated by commas. -/
def renderFields : List (Bytes × Payload) → Bytes
  | [] => []
  | [(k, p)] => renderString k ++ byte ':' :: render p
  | (k, p) :: q :: rest =>
    renderString k ++ byte ':' :: (render p ++ byte ',' :: renderFields (q :: rest))

end

end Payload
end Scriptlet
