import Scriptlet.Text.Bytes

/-!
# Glyphs: characters with the bytes they were read from

Decoding walks a byte string from the left. A well-formed UTF-8 sequence is one glyph; any byte
that does not start one is a glyph of its own that reads as U+FFFD. So every text has exactly one
decoding, and the bytes of its glyphs, put together, are the text.
-/

namespace Scriptlet

/-- A decoded character together with the bytes that stand for it in the text. -/
structure Glyph where
  char : Char
  bytes : Bytes
deriving DecidableEq, Repr

/-- The character a malformed byte reads as. -/
def replacement : Char := '\uFFFD'

namespace Glyph

/-- How many bytes the glyph takes. -/
def width (g : Glyph) : Nat := g.bytes.length

/-- The glyph of a byte that is not part of a well-formed sequence. -/
def malformed (b : UInt8) : Glyph := ⟨replacement, [b]⟩

/-- Whether the glyph is a malformed byte. A U+FFFD that was written out takes three bytes. -/
def isMalformed (g : Glyph) : Bool := g.char == replacement && g.bytes.length == 1

/-- The six low bits that a continuation byte carries. -/
def low (b : UInt8) : Nat := b.toNat % 64

/-- A byte of the form `10xxxxxx`. -/
def continues (b : UInt8) : Bool := 0x80 ≤ b && b ≤ 0xBF

/-- `b₀ b₁` is a two-byte sequence that is not overlong. -/
def isPair (b₀ b₁ : UInt8) : Bool := 0xC2 ≤ b₀ && b₀ ≤ 0xDF && continues b₁

/-- `b₀ b₁ b₂` is a three-byte sequence, neither overlong nor a surrogate. -/
def isTriple (b₀ b₁ b₂ : UInt8) : Bool :=
  0xE0 ≤ b₀ && b₀ ≤ 0xEF && continues b₁ && continues b₂ &&
    (b₀ != 0xE0 || 0xA0 ≤ b₁) && (b₀ != 0xED || b₁ ≤ 0x9F)

/-- `b₀ b₁ b₂ b₃` is a four-byte sequence, neither overlong nor beyond U+10FFFF. -/
def isQuad (b₀ b₁ b₂ b₃ : UInt8) : Bool :=
  0xF0 ≤ b₀ && b₀ ≤ 0xF4 && continues b₁ && continues b₂ && continues b₃ &&
    (b₀ != 0xF0 || 0x90 ≤ b₁) && (b₀ != 0xF4 || b₁ ≤ 0x8F)

/-- The glyph that the text `b₀ :: rest` begins with. -/
def decode (b₀ : UInt8) (rest : Bytes) : Glyph :=
  if b₀ < 0x80 then ⟨Char.ofNat b₀.toNat, [b₀]⟩
  else
    match rest with
    | b₁ :: b₂ :: b₃ :: _ =>
      if isPair b₀ b₁ then pair b₁
      else if isTriple b₀ b₁ b₂ then triple b₁ b₂
      else if isQuad b₀ b₁ b₂ b₃ then
        ⟨Char.ofNat (b₀.toNat % 8 * 262144 + low b₁ * 4096 + low b₂ * 64 + low b₃),
          [b₀, b₁, b₂, b₃]⟩
      else malformed b₀
    | [b₁, b₂] =>
      if isPair b₀ b₁ then pair b₁
      else if isTriple b₀ b₁ b₂ then triple b₁ b₂
      else malformed b₀
    | [b₁] => if isPair b₀ b₁ then pair b₁ else malformed b₀
    | [] => malformed b₀
where
  pair (b₁ : UInt8) : Glyph := ⟨Char.ofNat (b₀.toNat % 32 * 64 + low b₁), [b₀, b₁]⟩
  triple (b₁ b₂ : UInt8) : Glyph :=
    ⟨Char.ofNat (b₀.toNat % 16 * 4096 + low b₁ * 64 + low b₂), [b₀, b₁, b₂]⟩

/-- The bytes of a sequence of glyphs. -/
def text (gs : List Glyph) : Bytes := gs.flatMap Glyph.bytes

end Glyph

/-- Decodes the text after its first `skip` bytes, pushing the glyphs onto `found`. -/
def glyphsOnto (skip : Nat) : Bytes → List Glyph → List Glyph
  | [], found => found.reverse
  | b :: rest, found =>
    match skip with
    | k + 1 => glyphsOnto k rest found
    | 0 =>
      let g := Glyph.decode b rest
      glyphsOnto (g.width - 1) rest (g :: found)

/-- The decoding of a text. -/
def glyphs (s : Bytes) : List Glyph := glyphsOnto 0 s []

/-- The number of characters of a text, each malformed byte counting as one. -/
def glyphCount (s : Bytes) : Nat := (glyphs s).length

/-- The UTF-8 bytes of a character. -/
def encodeChar (c : Char) : Bytes := String.utf8EncodeChar c

/-- Whether a text is well-formed UTF-8. -/
def isUtf8 (s : Bytes) : Bool := (glyphs s).all fun g => !g.isMalformed

/-- The text with each malformed byte written out as U+FFFD. -/
def repair (s : Bytes) : Bytes := (glyphs s).flatMap fun g => encodeChar g.char

/-! ## Trimming by character class -/

/-- Drops the characters in the class from both ends. -/
def trimChars (p : Char → Bool) (s : Bytes) : Bytes :=
  let front := (glyphs s).dropWhile fun g => p g.char
  Glyph.text (front.reverse.dropWhile fun g => p g.char).reverse

end Scriptlet
