/-!
# Cursor: a place in a settings file

Tokens of a settings file depend on where they stand: columns make blocks, and a key must stand on
one line. A cursor is the text that is still to be read together with its place. A carriage return
before a line feed is one line break with it.
-/

namespace Scriptlet.Document

/-- A blank or a tab. -/
def isBlank (c : Char) : Bool := c == ' ' || c == '\t'

/-- A line break of any kind. -/
def isBreak (c : Char) : Bool :=
  c == '\n' || c == '\r' || c == '\u0085' || c == '\u2028' || c == '\u2029'

/-- A line break that stays as it is; the others are read as line feeds. -/
def isKeptBreak (c : Char) : Bool := c == '\u2028' || c == '\u2029'

/-- A blank or a line break. -/
def isSpacing (c : Char) : Bool := isBlank c || isBreak c

/-- Whether a word ends before this text. -/
def endsWord : List Char → Bool
  | [] => true
  | c :: _ => isSpacing c

/-- A letter, a digit, an underscore or a dash. -/
def isNameChar (c : Char) : Bool := c.isAlphanum || c == '_' || c == '-'

/-- The text that is still to be read, and its place. -/
structure Cursor where
  rest : List Char
  /-- The number of characters before this place. -/
  index : Nat := 0
  line : Nat := 0
  column : Nat := 0
  /-- The number of line breaks since the last character that is no blank. -/
  breaks : Nat := 0
deriving DecidableEq, Repr

namespace Cursor

/-- The place after one character of the line. -/
def step (c : Cursor) : Cursor :=
  match c.rest with
  | [] => c
  | ch :: rest =>
    { c with
      rest
      index := c.index + 1
      column := c.column + 1
      breaks := if isBlank ch then c.breaks else 0 }

/-- The place after `n` characters of the line. -/
def advance (c : Cursor) : Nat → Cursor
  | 0 => c
  | n + 1 => c.step.advance n

/-- The start of the next line, for a line break of `width` characters. -/
def newLine (c : Cursor) (width : Nat) : Cursor where
  rest := c.rest.drop width
  index := c.index + width
  line := c.line + 1
  column := 0
  breaks := c.breaks + 1

/-- The place after a line break, and what the break is read as. -/
def crossLine (c : Cursor) : List Char × Cursor :=
  match c.rest with
  | '\r' :: '\n' :: _ => (['\n'], c.newLine 2)
  | ch :: _ =>
    if isKeptBreak ch then ([ch], c.newLine 1)
    else if isBreak ch then (['\n'], c.newLine 1)
    else ([], c)
  | [] => ([], c)

/-- The number of blanks at this place. -/
def blanks (c : Cursor) : Nat := (c.rest.takeWhile isBlank).length

/-- The place after the blanks. -/
def skipBlanks (c : Cursor) : Cursor := c.advance c.blanks

/-- The end of the line. -/
def toLineEnd (c : Cursor) : Cursor :=
  c.advance (c.rest.takeWhile (!isBreak ·)).length

/-- The characters of a class at this place, and the place after them. -/
def run (p : Char → Bool) (c : Cursor) : List Char × Cursor :=
  let found := c.rest.takeWhile p
  (found, c.advance found.length)

/-- Whether the text goes on with a character. -/
def isAt (c : Cursor) (ch : Char) : Bool := c.rest.head? == some ch

/-- Whether a line starts here with three times the character, as a word of its own. -/
def isAtTriple (c : Cursor) (ch : Char) : Bool :=
  c.column == 0 && [ch, ch, ch].isPrefixOf c.rest && endsWord (c.rest.drop 3)

/-- Whether a line starts here that ends or starts a document. -/
def isAtMarker (c : Cursor) : Bool := c.isAtTriple '-' || c.isAtTriple '.'

/-! ## Comments -/

/-- How far ahead a comment is looked for. -/
def lookahead : Nat := 512

/-- The end of the line if nothing but a comment is left of it. -/
def skipLineComment (c : Cursor) : Cursor :=
  if c.breaks = 0 ∧ c.blanks < lookahead ∧ (c.rest.drop c.blanks).head? = some '#' then c.toLineEnd
  else c

/-- The place after blanks and line breaks, at most `bound` of them. -/
def skipSpacing : Nat → Cursor → Cursor
  | 0, c => c
  | bound + 1, c =>
    match c.rest with
    | [] => c
    | ch :: _ =>
      if isBlank ch then skipSpacing bound c.step
      else if isBreak ch then skipSpacing bound c.crossLine.2
      else c

/-- Whether the next thing after the line break here is a comment. -/
def leadsToComment (c : Cursor) : Bool :=
  let isGap (ch : Char) : Bool := isBlank ch || ch == '\n' || ch == '\r'
  match c.rest with
  | '\n' :: rest | '\r' :: rest =>
    let gap := (rest.takeWhile isGap).length
    gap + 1 < lookahead && (rest.drop gap).head? == some '#'
  | _ => false

/-- The end of the last of the comments that follow each other from here on. -/
def skipComments : Nat → Cursor → Cursor
  | 0, c => c
  | bound + 1, c =>
    let ended := c.toLineEnd
    if ended.leadsToComment then skipComments bound (ended.skipSpacing ended.rest.length)
    else ended

end Cursor
end Scriptlet.Document
