import Scriptlet.Document.Cursor

/-!
# Scalar: text in a settings file

Text is written plain, in quotes, or as a block of lines. Plain and quoted text may run over several
lines; a single line break in it is read as a blank, and of several breaks all but the first are
kept. Each reader starts at the first character of its scalar and hands back the place after it.
-/

namespace Scriptlet.Document

/-! ## Gaps -/

/-- What stands between two words of a scalar: blanks only, or line breaks with blanks around. -/
structure Gap where
  blanks : List Char := []
  /-- Whether a line ended in the gap. -/
  broken : Bool := false
  /-- The first line break, unless it was escaped. -/
  first : List Char := []
  /-- The further line breaks. -/
  more : List Char := []
deriving DecidableEq, Repr

/-- What a gap is read as. -/
def Gap.text (g : Gap) : List Char :=
  if !g.broken then g.blanks
  else if g.first != ['\n'] then g.first ++ g.more
  else if g.more.isEmpty then [' ']
  else g.more

/-- Reads the rest of a gap. On a line of its own no tab may stand before column `margin`. -/
def Cursor.gapFrom (margin : Nat) : Nat → Gap → Cursor → Option (Gap × Cursor)
  | 0, g, c => some (g, c)
  | bound + 1, g, c =>
    match c.rest with
    | [] => some (g, c)
    | ch :: _ =>
      if isBlank ch then
        if !g.broken then gapFrom margin bound { g with blanks := g.blanks ++ [ch] } c.step
        else if ch == '\t' && c.column < margin then none
        else gapFrom margin bound g c.step
      else if isBreak ch then
        let (text, next) := c.crossLine
        if g.broken then gapFrom margin bound { g with more := g.more ++ text } next
        else gapFrom margin bound { g with broken := true, first := text } next
      else some (g, c)

/-- The gap at this place and the place after it. -/
def Cursor.gap (c : Cursor) (margin : Nat) (g : Gap) : Option (Gap × Cursor) :=
  c.gapFrom margin c.rest.length g

/-! ## Plain text -/

/-- The characters that end plain text within brackets. -/
def flowEnds : List Char := [',', '?', '[', ']', '\x7b', '\x7d']

/-- The number of characters up to the next gap or to the end of plain text. -/
def wordLength (flow : Bool) : List Char → Nat
  | [] => 0
  | ch :: rest =>
    if isSpacing ch || (ch == ':' && endsWord rest) || (flow && flowEnds.contains ch) then 0
    else wordLength flow rest + 1

/-- Text that was read, and the place after it. -/
structure Passage where
  text : List Char
  next : Cursor
  /-- Whether lines ended after the text. -/
  broken : Bool := false
deriving DecidableEq, Repr

/-- Plain text after the words in `out`, which come in reverse, and a gap. -/
def plainFrom (flow : Bool) (margin : Nat) :
    Nat → List Char → Gap → Cursor → Option Passage
  | 0, _, _, _ => none
  | bound + 1, out, g, c =>
    let width := wordLength flow c.rest
    if c.isAtMarker || c.isAt '#' || width = 0 then some ⟨out.reverse, c, g.broken⟩
    else
      let out := (g.text ++ c.rest.take width).reverse ++ out
      match (c.advance width).gap margin {} with
      | none => none
      | some (after, next) =>
        if !flow && next.column < margin then some ⟨out.reverse, next, after.broken⟩
        else plainFrom flow margin bound out after next

/-- Plain text; outside brackets it ends with the last line that is indented to `margin`. -/
def Cursor.plain (flow : Bool) (margin : Nat) (c : Cursor) : Option Passage :=
  plainFrom flow margin (c.rest.length + 1) [] {} c

/-! ## Quoted text -/

/-- The escapes of one character within double quotes. -/
def escapes : List (Char × Char) :=
  [('0', '\x00'), ('a', '\x07'), ('b', '\x08'), ('t', '\t'), ('\t', '\t'), ('n', '\n'),
    ('v', '\x0b'), ('f', '\x0c'), ('r', '\r'), ('e', '\x1b'), (' ', ' '), ('"', '"'),
    ('\'', '\''), ('\\', '\\'), ('N', '\u0085'), ('_', '\u00A0'), ('L', '\u2028'), ('P', '\u2029')]

/-- The escapes that give a character by its number, and how many digits they take. -/
def numericEscapes : List (Char × Nat) := [('x', 2), ('u', 4), ('U', 8)]

/-- The value of a hexadecimal digit. -/
def hexValue? (c : Char) : Option Nat :=
  if '0' ≤ c && c ≤ '9' then some (c.toNat - '0'.toNat)
  else if 'a' ≤ c && c ≤ 'f' then some (c.toNat - 'a'.toNat + 10)
  else if 'A' ≤ c && c ≤ 'F' then some (c.toNat - 'A'.toNat + 10)
  else none

/-- The character whose number the hexadecimal digits give. -/
def numbered? (ds : List Char) : Option Char := do
  let n ← ds.foldlM (fun n d => (hexValue? d).map (n * 16 + ·)) 0
  if n.isValidChar then some (Char.ofNat n) else none

/-- The character of an escape that starts after its backslash, and how long the escape is. -/
def escape? : List Char → Option (Char × Nat)
  | [] => none
  | e :: rest =>
    match escapes.lookup e, numericEscapes.lookup e with
    | some ch, _ => some (ch, 1)
    | none, some width =>
      if width ≤ rest.length then (numbered? (rest.take width)).map (·, width + 1) else none
    | none, none => none

/-- Quoted text after `out`, which comes in reverse. In single quotes a quote is written twice; in
double quotes there are escapes, and a line break may be escaped too. -/
def quotedFrom (quote : Char) : Nat → List Char → Cursor → Option Passage
  | 0, _, _ => none
  | bound + 1, out, c =>
    if c.isAtMarker then none
    else
      match c.rest with
      | [] => none
      | ch :: rest =>
        if ch == quote then
          if quote == '\'' && rest.head? == some quote then
            quotedFrom quote bound (quote :: out) (c.advance 2)
          else some { text := out.reverse, next := c.step }
        else if isSpacing ch then
          match c.gap 0 {} with
          | some (g, next) => quotedFrom quote bound (g.text.reverse ++ out) next
          | none => none
        else if quote == '"' && ch == '\\' then
          if rest.head?.any isBreak then
            match c.step.crossLine.2.gap 0 { broken := true } with
            | some (g, next) => quotedFrom quote bound (g.text.reverse ++ out) next
            | none => none
          else
            match escape? rest with
            | some (e, width) => quotedFrom quote bound (e :: out) (c.advance (width + 1))
            | none => none
        else quotedFrom quote bound (ch :: out) c.step

/-- Quoted text that starts with its quote. -/
def Cursor.quoted (c : Cursor) : Option Passage :=
  match c.rest with
  | [] => none
  | quote :: _ => quotedFrom quote (c.rest.length + 1) [] c.step

/-! ## Blocks of lines -/

/-- What becomes of the line breaks at the end of a block. -/
inductive Chomping where
  /-- None of them is kept. -/
  | strip
  /-- One of them is kept. -/
  | clip
  | keep
deriving DecidableEq, Repr

/-- How a block is read. -/
structure BlockStyle where
  /-- Whether line breaks between lines are kept. -/
  literal : Bool
  chomping : Chomping := .clip
  /-- By how much the block is indented; zero if its first line tells. -/
  indent : Nat := 0
deriving DecidableEq, Repr

/-- Reads a mark for the end of the block, if there is one. -/
def chompingMark? : List Char → Option Chomping
  | '+' :: _ => some .keep
  | '-' :: _ => some .strip
  | _ => none

/-- Reads the marks after the first character of a block: one for its end and a digit for its
indentation, in either order. -/
def BlockStyle.read (literal : Bool) (c : Cursor) : Option (BlockStyle × Cursor) :=
  let isIndent : Bool := c.rest.head?.any Char.isDigit
  let digit (c : Cursor) : Option (Nat × Cursor) :=
    match c.rest with
    | ch :: _ =>
      if ch == '0' then none
      else if ch.isDigit then some (ch.toNat - '0'.toNat, c.step)
      else some (0, c)
    | [] => some (0, c)
  match chompingMark? c.rest with
  | some chomping => (digit c.step).map fun (indent, next) => ({ literal, chomping, indent }, next)
  | none =>
    if !isIndent then some ({ literal }, c)
    else
      match digit c with
      | none => none
      | some (indent, next) =>
        match chompingMark? next.rest with
        | some chomping => some ({ literal, chomping, indent }, next.step)
        | none => some ({ literal, indent }, next)

/-- Blanks that indent a line, up to the given column; all of them if it is zero. -/
def indentLength (indent column : Nat) : List Char → Nat
  | ' ' :: rest =>
    if indent = 0 ∨ column < indent then indentLength indent (column + 1) rest + 1 else 0
  | _ => 0

/-- The empty lines at this place: their breaks, the deepest column that was met, and the start of
the text of the first line that is not empty. -/
def emptyLines (indent : Nat) : Nat → List Char → Nat → Cursor → Option (List Char × Nat × Cursor)
  | 0, _, _, _ => none
  | bound + 1, found, deepest, c =>
    let c := c.advance (indentLength indent c.column c.rest)
    let deepest := max deepest c.column
    if (indent = 0 ∨ c.column < indent) ∧ c.isAt '\t' then none
    else if c.rest.head?.any isBreak then
      let (text, next) := c.crossLine
      emptyLines indent bound (found ++ text) deepest next
    else some (found, deepest, c)

/-- The lines of a block from its first line with text on. `leading` is the break before the line,
`trailing` those of the empty lines before it, and `spaced` tells whether the line before started
with a blank. -/
def blockLines (style : BlockStyle) (indent : Nat) :
    Nat → List Char → List Char → List Char → Bool → Cursor → Option Passage
  | 0, _, _, _, _, _ => none
  | bound + 1, out, leading, trailing, spaced, c =>
    if c.column = indent ∧ !c.rest.isEmpty then
      let blank := c.rest.head?.any isBlank
      let folded := !style.literal && !spaced && !blank && leading == ['\n']
      let join := if !folded then leading else if trailing.isEmpty then [' '] else []
      let (line, ended) := c.run (!isBreak ·)
      let (leading, next) := ended.crossLine
      match emptyLines indent (next.rest.length + 1) [] 0 next with
      | none => none
      | some (empty, _, start) =>
        blockLines style indent bound (out ++ join ++ trailing ++ line) leading empty blank start
    else
      let text := match style.chomping with
        | .strip => out
        | .clip => out ++ leading
        | .keep => out ++ leading ++ trailing
      some { text, next := c }

/-- The end of the line if there is nothing on it but a comment. -/
def Cursor.lineEnd? (c : Cursor) : Option Cursor :=
  let c := c.skipBlanks
  let c := if c.isAt '#' then c.toLineEnd else c
  if c.rest.isEmpty then some c
  else if c.rest.head?.any isBreak then some c.crossLine.2
  else none

/-- A block of lines that starts with its mark. Its lines are indented to `margin` at least. -/
def Cursor.block (margin : Nat) (c : Cursor) : Option Passage := do
  let (style, c) ← BlockStyle.read (c.isAt '|') c.step
  let c ← c.lineEnd?
  let given := if style.indent = 0 then 0 else margin - 1 + style.indent
  let (empty, deepest, start) ← emptyLines given (c.rest.length + 1) [] 0 c
  let indent := if given = 0 then max deepest (max margin 1) else given
  blockLines style indent (start.rest.length + 1) [] [] empty false start

end Scriptlet.Document
