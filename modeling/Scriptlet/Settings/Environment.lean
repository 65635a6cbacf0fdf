import Scriptlet.Files
import Scriptlet.Text.Blank
import Scriptlet.Text.Letter
import Scriptlet.Text.Digit

/-!
# Environment: variables and the files that add to them

An environment file holds lines `NAME=value` or `NAME: value`, possibly after `export`. Values may
stand in quotes, within which a line may end; unquoted ones end before a blank and a `#`, or at the
end of the line. `$NAME` stands for a variable from earlier in the file. A file that is malformed
anywhere adds nothing, and a variable that is already there keeps its value.
-/

namespace Scriptlet

/-- Variables and their values. -/
abbrev Environment := List (Bytes × Bytes)

namespace Environment

/-- The value of a variable. -/
def get? (env : Environment) (name : Bytes) : Option Bytes := env.lookup name

/-- Sets a variable. -/
def set (env : Environment) (name value : Bytes) : Environment :=
  (name, value) :: env.filter (·.1 != name)

/-- The value of a variable without blanks at its ends; empty if there is none. -/
def trimmed (env : Environment) (name : Bytes) : Bytes := trimBlanks ((env.get? name).getD [])

/-! ## Environment files -/

/-- A blank within a line. -/
def isInlineBlank (c : Char) : Bool :=
  c == '\t' || c == '\x0b' || c == '\x0c' || c == '\r' || c == ' ' || c == '\u0085' || c == '\u00A0'

/-- The text without the characters of a class at its start. -/
def trimLeft (p : Char → Bool) (s : Bytes) : Bytes :=
  Glyph.text ((glyphs s).dropWhile fun g => p g.char)

/-- The text without the characters of a class at its end. -/
def trimRight (p : Char → Bool) (s : Bytes) : Bytes :=
  Glyph.text ((glyphs s).reverse.dropWhile fun g => p g.char).reverse

/-- The rest of the file from its next statement, past blanks and comment lines; each line skipped
is one of `bound`. -/
def nextStatement : Nat → Bytes → Option Bytes
  | 0, _ => none
  | bound + 1, s =>
    match trimLeft isBlank s with
    | [] => none
    | b :: rest =>
      if b == byte '#' then nextStatement bound ((b :: rest).dropWhile (· != byte '\n'))
      else some (b :: rest)

/-- Drops `export` and the blanks after it. -/
def dropExport (s : Bytes) : Bytes :=
  let word := utf8 "export"
  if word.isPrefixOf s then
    let rest := s.drop word.length
    let trimmed := trimLeft isInlineBlank rest
    if trimmed.length < rest.length then trimmed else s
  else s

/-- Whether a byte, taken as a character of its own, may stand in a name. -/
def isNameByte (b : UInt8) : Bool :=
  let c := Char.ofNat b.toNat
  isInlineBlank c || b == byte '_' || b == byte '.' || isLetter c || isDigit c ||
    b == 0xB2 || b == 0xB3 || b == 0xB9 || (0xBC ≤ b && b ≤ 0xBE)

/-- A name and what follows its sign. Without a sign the name is empty and all is value; with
nothing at all after `export` there is no statement. -/
def splitName (s : Bytes) : Option (Bytes × Bytes) :=
  let src := dropExport (trimLeft isInlineBlank s)
  let name := src.takeWhile fun b => b != byte '=' && b != byte ':'
  if src.isEmpty || !name.all isNameByte then none
  else
    match src.drop name.length with
    | [] => some ([], trimLeft isInlineBlank src)
    | _ :: rest => some (trimRight isBlank name, trimLeft isInlineBlank rest)

/-- A character of a variable's name within a value. -/
def isReferenceByte (b : UInt8) : Bool :=
  (65 ≤ b && b ≤ 90) || (48 ≤ b && b ≤ 57) || b == byte '_'

/-- Drops a byte from the start, if it is there. -/
def dropByte (b : UInt8) (s : Bytes) : Bytes := if s.head? == some b then s.tail else s

/-- Replaces each `$NAME`, with or without brackets, by the variable's value; after a backslash it
is kept. Without a name the sign stands for itself. -/
def expand (vars : Environment) : Nat → Bytes → Bytes
  | 0, _ => []
  | _ + 1, [] => []
  | bound + 1, b :: rest =>
    let dollar := byte '$'
    let escaped := b == byte '\\' && rest.head? == some dollar
    if escaped || b == dollar then
      let body := if escaped then rest.tail else rest
      let opened := dropByte (byte '\x7b') (dropByte (byte '(') body)
      let name := opened.takeWhile isReferenceByte
      let after := dropByte (byte '\x7d') (opened.drop name.length)
      let matched := body.take (body.length - after.length)
      let shown :=
        if escaped then dollar :: matched
        else if name.isEmpty then dollar :: matched
        else (vars.get? name).getD []
      shown ++ expand vars bound after
    else b :: expand vars bound rest

/-- Reads `\n` and `\r` as line ends; other pairs are kept for `dropEscapes`. -/
def readLineEnds : Bytes → Bytes
  | [] => []
  | [b] => [b]
  | b :: c :: rest =>
    if b == byte '\\' then
      if c == byte 'n' then byte '\n' :: readLineEnds rest
      else if c == byte 'r' then byte '\r' :: readLineEnds rest
      else if c == byte '\n' then b :: readLineEnds (c :: rest)
      else b :: c :: readLineEnds rest
    else b :: readLineEnds (c :: rest)

/-- Drops the backslash before anything but a dollar sign. -/
def dropEscapes : Bytes → Bytes
  | [] => []
  | [b] => [b]
  | b :: c :: rest =>
    if b == byte '\\' && c != byte '$' then c :: dropEscapes rest else b :: dropEscapes (c :: rest)

/-- An unquoted value: the line up to the first blank and `#`, without blanks at its ends. -/
def lineValue (line : Bytes) : Bytes :=
  let gs := glyphs line
  let comment := (List.range gs.length).find? fun i =>
    0 < i && (gs[i]?.map Glyph.char) == some '#' &&
      ((gs[i - 1]?.map Glyph.char).map isInlineBlank).getD false
  let kept := match comment with
    | some i => gs.take i
    | none => gs
  trimChars isInlineBlank (kept.flatMap fun g => encodeChar g.char)

/-- The text up to the closing quote, which stands after no backslash, and what follows it. -/
def closeQuote (quote : UInt8) : UInt8 → Bytes → Bytes → Option (Bytes × Bytes)
  | _, _, [] => none
  | before, inner, b :: rest =>
    if b == quote && before != byte '\\' then some (inner.reverse, rest)
    else closeQuote quote b (b :: inner) rest

/-- A value and what follows it. -/
def splitValue (vars : Environment) (s : Bytes) : Option (Bytes × Bytes) :=
  match s with
  | [] => some ([], [])
  | b :: rest =>
    if b == byte '"' || b == byte '\'' then
      match closeQuote b b [] rest with
      | none => none
      | some (inner, after) =>
        let isQuote (c : UInt8) : Bool := c == b
        let bare := ((inner.dropWhile isQuote).reverse.dropWhile isQuote).reverse
        if b == byte '"' then
          let text := dropEscapes (readLineEnds bare)
          some (expand vars (text.length + 1) text, after)
        else some (bare, after)
    else
      let line := s.takeWhile fun c => c != byte '\n' && c != byte '\r'
      let text := lineValue line
      some (expand vars (text.length + 1) text, s.drop line.length)

/-- The variables of a file, in addition to those read so far; none if it is malformed. Each
statement takes at least one byte. -/
def statements : Nat → Environment → Bytes → Option Environment
  | 0, vars, _ => some vars
  | bound + 1, vars, s =>
    match nextStatement (s.length + 1) s with
    | none => some vars
    | some start => do
      let (name, rest) ← splitName start
      let (value, after) ← splitValue vars rest
      statements bound (vars.set name value) after

/-- The variables of an environment file. -/
def ofFile? (contents : Bytes) : Option Environment :=
  let text := Bytes.replaceAll (utf8 "\r\n") (utf8 "\n") contents
  statements (text.length + 1) [] text

/-- Whether a variable can be set: its name is neither empty nor holds `=`, and no zero byte. -/
def settable (name value : Bytes) : Bool :=
  !name.isEmpty && !name.contains (byte '=') && !name.contains 0 && !value.contains 0

/-- Adds the variables of a file to those that are there, which win. -/
def merge (env vars : Environment) : Environment :=
  env ++ vars.filter fun (name, value) => (env.get? name).isNone && settable name value

/-- The environment with the file at a path, if it can be read. -/
def withFile (env : Environment) (files : Files) (path : Bytes) : Environment :=
  match files.read path with
  | .error _ => env
  | .ok contents =>
    match ofFile? contents with
    | some vars => env.merge vars
    | none => env

end Environment
end Scriptlet
