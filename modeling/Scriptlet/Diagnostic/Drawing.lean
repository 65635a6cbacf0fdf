import Scriptlet.Diagnostic
import Scriptlet.Diagnostic.Location
import Scriptlet.Text.Width

/-!
# Drawing: notices drawn against the source

The drawing names the place, shows the line it lies on and marks the offending characters with
carets. On a terminal the parts are painted; painting turns tabs into four spaces and carriage
return line ends into plain ones, fills up the lines of a part to one width, and colours only where
the terminal has colours.
-/

namespace Scriptlet

/-- How a drawing is painted. -/
inductive Paint where
  /-- Text as it is. -/
  | plain
  /-- For a terminal without colours. -/
  | ascii
  /-- For a terminal with sixteen colours. -/
  | ansi
deriving DecidableEq, Repr, Inhabited

/-- The paint for a terminal that shows no colours, if painting is wanted at all. -/
def Paint.forTerminal (wanted : Bool) : Paint := if wanted then .ascii else .plain

/-- The parts of a drawing that are painted. -/
inductive Style where
  | header | gutter | marker | note
deriving DecidableEq, Repr

/-- The terminal attributes of a part: bold, and bright red or blue. -/
def Style.attributes : Style → Bytes
  | .header | .marker => utf8 "1;91"
  | .gutter => utf8 "1;94"
  | .note => utf8 "1"

/-- Lines filled up with blanks to the width of the widest. -/
def evened (lines : List Bytes) : List Bytes :=
  let widest := lines.foldl (fun w line => max w (textWidth line)) 0
  lines.map fun line => line ++ List.replicate (widest - textWidth line) (byte ' ')

/-- A line in a style. -/
def Paint.line (p : Paint) (style : Style) (s : Bytes) : Bytes :=
  match p with
  | .ansi => utf8 "\x1b[" ++ style.attributes ++ utf8 "m" ++ s ++ utf8 "\x1b[0m"
  | _ => s

/-- A text painted in a style, line by line; the lines of a painted text have one width. -/
def Paint.apply (p : Paint) (style : Style) (s : Bytes) : Bytes :=
  let spaced := Bytes.replaceAll (utf8 "\r\n") (utf8 "\n")
    (Bytes.replaceAll (utf8 "\t") (utf8 "    ") s)
  match p with
  | .plain => s
  | _ => (utf8 "\n").intercalate (evened ((Bytes.split (byte '\n') spaced).map (p.line style)))

namespace Location

/-- The blank space under the characters before the place; tabs stay tabs, so that the marker lines
up with the line above it. -/
def indent (l : Location) : Bytes :=
  ((glyphs l.text).take (l.column - 1)).map fun g => if g.char == '\t' then byte '\t' else byte ' '

/-- How many characters of the shown line the span covers, at least one. -/
def caretCount (l : Location) (span : Span) : Nat :=
  let lineStart : Int := l.lineStart
  let lineStop : Int := l.lineStart + l.text.length
  let start := min (max span.start lineStart) lineStop
  let stop := min span.stop lineStop
  if start < stop then
    let covered := (l.text.drop (start - lineStart).toNat).take (stop - start).toNat
    max 1 (glyphCount covered)
  else 1

/-- The carets under the span. -/
def carets (l : Location) (span : Span) : Bytes :=
  List.replicate (l.caretCount span) (byte '^')

end Location

/-- The name shown for a program without one. -/
def anonymousName : Bytes := utf8 "<input>"

/-- Draws a notice about the program `name` with the given source. -/
def Notice.render (p : Paint) (name source : Bytes) (n : Notice) : Bytes :=
  let shownName := if name.isEmpty then anonymousName else name
  let place := locate source n.span.start
  let lineNo := decimal place.line
  let pad := List.replicate lineNo.length (byte ' ')
  let bar := p.apply .gutter (utf8 "|")
  let space := utf8 " "
  let newline := utf8 "\n"
  p.apply .header (utf8 "error[" ++ n.key ++ utf8 "]") ++
    p.apply .note (utf8 ": " ++ n.message) ++ newline ++
  pad ++ p.apply .gutter (utf8 "-->") ++ space ++ shownName ++ utf8 ":" ++ lineNo ++ utf8 ":" ++
    decimal place.column ++ newline ++
  pad ++ space ++ bar ++ newline ++
  p.apply .gutter lineNo ++ space ++ bar ++ space ++ place.text ++ newline ++
  pad ++ space ++ bar ++ space ++ place.indent ++ p.apply .marker (place.carets n.span) ++ space ++
    p.apply .marker n.note ++ newline ++
  pad ++ space ++ bar ++ newline ++
  pad ++ space ++ p.apply .gutter (utf8 "=") ++ utf8 " note: " ++ n.note ++ newline

end Scriptlet
