import Scriptlet.Text.Glyph

/-!
# Location: lines and columns of byte offsets

Lines end at line feeds and are counted from one. A column counts characters, not bytes, also from
one. The text of a line is shown without its line end, be it a line feed alone or a carriage return
before it.
-/

namespace Scriptlet

/-- A place in a source, with the line it lies on. -/
structure Location where
  line : Nat
  column : Nat
  text : Bytes
  /-- The offset at which the line begins. -/
  lineStart : Nat
deriving DecidableEq, Repr

/-- The line feed. -/
def lineFeed : UInt8 := 10

/-- An offset moved into the text. -/
def clampOffset (source : Bytes) (offset : Int) : Nat := min offset.toNat source.length

/-- Finds the line and column of an offset; offsets outside the text count as its nearer end. -/
def locate (source : Bytes) (offset : Int) : Location :=
  let o := clampOffset source offset
  let before := source.take o
  let part := (before.reverse.takeWhile (· != lineFeed)).reverse
  let start := o - part.length
  let line := (source.drop start).takeWhile (· != lineFeed)
  { line := 1 + before.count lineFeed
    column := glyphCount part + 1
    text := Bytes.dropEnd (utf8 "\r") line
    lineStart := start }

end Scriptlet
