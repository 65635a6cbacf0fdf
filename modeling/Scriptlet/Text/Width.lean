import Scriptlet.Text.Cluster
import Scriptlet.Text.Glyph

/-!
# Width: how many columns a text takes on a terminal

Characters of East Asian scripts take two columns, and so do flags and most pictographs; marks and
controls take none. Control sequences, which a terminal obeys and does not show, take none either.
-/

namespace Scriptlet

/-- The characters that take two columns: East Asian width W and F. -/
def wideRanges : CodeRanges :=
  [
    (0x1100, 0x115F), (0x231A, 0x231B), (0x2329, 0x232A), (0x23E9, 0x23EC), (0x23F0, 0x23F0),
    (0x23F3, 0x23F3), (0x25FD, 0x25FE), (0x2614, 0x2615), (0x2648, 0x2653), (0x267F, 0x267F),
    (0x2693, 0x2693), (0x26A1, 0x26A1), (0x26AA, 0x26AB), (0x26BD, 0x26BE), (0x26C4, 0x26C5),
    (0x26CE, 0x26CE), (0x26D4, 0x26D4), (0x26EA, 0x26EA), (0x26F2, 0x26F3), (0x26F5, 0x26F5),
    (0x26FA, 0x26FA), (0x26FD, 0x26FD), (0x2705, 0x2705), (0x270A, 0x270B), (0x2728, 0x2728),
    (0x274C, 0x274C), (0x274E, 0x274E), (0x2753, 0x2755), (0x2757, 0x2757), (0x2795, 0x2797),
    (0x27B0, 0x27B0), (0x27BF, 0x27BF), (0x2B1B, 0x2B1C), (0x2B50, 0x2B50), (0x2B55, 0x2B55),
    (0x2E80, 0x2E99), (0x2E9B, 0x2EF3), (0x2F00, 0x2FD5), (0x2FF0, 0x2FFB), (0x3000, 0x303E),
    (0x3041, 0x3096), (0x3099, 0x30FF), (0x3105, 0x312F), (0x3131, 0x318E), (0x3190, 0x31E3),
    (0x31F0, 0x321E), (0x3220, 0x3247), (0x3250, 0x4DBF), (0x4E00, 0xA48C), (0xA490, 0xA4C6),
    (0xA960, 0xA97C), (0xAC00, 0xD7A3), (0xF900, 0xFAFF), (0xFE10, 0xFE19), (0xFE30, 0xFE52),
    (0xFE54, 0xFE66), (0xFE68, 0xFE6B), (0xFF01, 0xFF60), (0xFFE0, 0xFFE6), (0x16FE0, 0x16FE4),
    (0x16FF0, 0x16FF1), (0x17000, 0x187F7), (0x18800, 0x18CD5), (0x18D00, 0x18D08),
    (0x1AFF0, 0x1AFF3), (0x1AFF5, 0x1AFFB), (0x1AFFD, 0x1AFFE), (0x1B000, 0x1B122),
    (0x1B132, 0x1B132), (0x1B150, 0x1B152), (0x1B155, 0x1B155), (0x1B164, 0x1B167),
    (0x1B170, 0x1B2FB), (0x1F004, 0x1F004), (0x1F0CF, 0x1F0CF), (0x1F18E, 0x1F18E),
    (0x1F191, 0x1F19A), (0x1F200, 0x1F202), (0x1F210, 0x1F23B), (0x1F240, 0x1F248),
    (0x1F250, 0x1F251), (0x1F260, 0x1F265), (0x1F300, 0x1F320), (0x1F32D, 0x1F335),
    (0x1F337, 0x1F37C), (0x1F37E, 0x1F393), (0x1F3A0, 0x1F3CA), (0x1F3CF, 0x1F3D3),
    (0x1F3E0, 0x1F3F0), (0x1F3F4, 0x1F3F4), (0x1F3F8, 0x1F43E), (0x1F440, 0x1F440),
    (0x1F442, 0x1F4FC), (0x1F4FF, 0x1F53D), (0x1F54B, 0x1F54E), (0x1F550, 0x1F567),
    (0x1F57A, 0x1F57A), (0x1F595, 0x1F596), (0x1F5A4, 0x1F5A4), (0x1F5FB, 0x1F64F),
    (0x1F680, 0x1F6C5), (0x1F6CC, 0x1F6CC), (0x1F6D0, 0x1F6D2), (0x1F6D5, 0x1F6D7),
    (0x1F6DC, 0x1F6DF), (0x1F6EB, 0x1F6EC), (0x1F6F4, 0x1F6FC), (0x1F7E0, 0x1F7EB),
    (0x1F7F0, 0x1F7F0), (0x1F90C, 0x1F93A), (0x1F93C, 0x1F945), (0x1F947, 0x1F9FF),
    (0x1FA70, 0x1FA7C), (0x1FA80, 0x1FA88), (0x1FA90, 0x1FABD), (0x1FABF, 0x1FAC5),
    (0x1FACE, 0x1FADB), (0x1FAE0, 0x1FAE8), (0x1FAF0, 0x1FAF8), (0x20000, 0x2FFFD),
    (0x30000, 0x3FFFD)
  ]

/-- The pictographs that are shown as pictures of their own accord. -/
def pictureRanges : CodeRanges :=
  [
    (0x231A, 0x231B), (0x23E9, 0x23EC), (0x23F0, 0x23F0), (0x23F3, 0x23F3), (0x25FD, 0x25FE),
    (0x2614, 0x2615), (0x2648, 0x2653), (0x267F, 0x267F), (0x2693, 0x2693), (0x26A1, 0x26A1),
    (0x26AA, 0x26AB), (0x26BD, 0x26BE), (0x26C4, 0x26C5), (0x26CE, 0x26CE), (0x26D4, 0x26D4),
    (0x26EA, 0x26EA), (0x26F2, 0x26F3), (0x26F5, 0x26F5), (0x26FA, 0x26FA), (0x26FD, 0x26FD),
    (0x2705, 0x2705), (0x270A, 0x270B), (0x2728, 0x2728), (0x274C, 0x274C), (0x274E, 0x274E),
    (0x2753, 0x2755), (0x2757, 0x2757), (0x2795, 0x2797), (0x27B0, 0x27B0), (0x27BF, 0x27BF),
    (0x2B1B, 0x2B1C), (0x2B50, 0x2B50), (0x2B55, 0x2B55), (0x1F004, 0x1F004), (0x1F0CF, 0x1F0CF),
    (0x1F18E, 0x1F18E), (0x1F191, 0x1F19A), (0x1F1E6, 0x1F1FF), (0x1F201, 0x1F201),
    (0x1F21A, 0x1F21A), (0x1F22F, 0x1F22F), (0x1F232, 0x1F236), (0x1F238, 0x1F23A),
    (0x1F250, 0x1F251), (0x1F300, 0x1F320), (0x1F32D, 0x1F335), (0x1F337, 0x1F37C),
    (0x1F37E, 0x1F393), (0x1F3A0, 0x1F3CA), (0x1F3CF, 0x1F3D3), (0x1F3E0, 0x1F3F0),
    (0x1F3F4, 0x1F3F4), (0x1F3F8, 0x1F43E), (0x1F440, 0x1F440), (0x1F442, 0x1F4FC),
    (0x1F4FF, 0x1F53D), (0x1F54B, 0x1F54E), (0x1F550, 0x1F567), (0x1F57A, 0x1F57A),
    (0x1F595, 0x1F596), (0x1F5A4, 0x1F5A4), (0x1F5FB, 0x1F64F), (0x1F680, 0x1F6C5),
    (0x1F6CC, 0x1F6CC), (0x1F6D0, 0x1F6D2), (0x1F6D5, 0x1F6D7), (0x1F6DC, 0x1F6DF),
    (0x1F6EB, 0x1F6EC), (0x1F6F4, 0x1F6FC), (0x1F7E0, 0x1F7EB), (0x1F7F0, 0x1F7F0),
    (0x1F90C, 0x1F93A), (0x1F93C, 0x1F945), (0x1F947, 0x1F9FF), (0x1FA70, 0x1FA7C),
    (0x1FA80, 0x1FA88), (0x1FA90, 0x1FABD), (0x1FABF, 0x1FAC5), (0x1FACE, 0x1FADB),
    (0x1FAE0, 0x1FAE8), (0x1FAF0, 0x1FAF8)
  ]

/-- The columns a character takes. -/
def charWidth (c : Char) : Nat :=
  match joining c with
  | .carriageReturn | .lineFeed | .control | .extending | .joiner => 0
  | .regional => 2
  | .pictographic => if pictureRanges.has c.toNat then 2 else 1
  | _ =>
    if c = '\u2E3A' then 3
    else if c = '\u2E3B' then 4
    else if wideRanges.has c.toNat then 2
    else 1

/-- The columns of a cluster: its first character and what follows. Flags and Hangul syllables are
as wide as their first character, and the style of a pictograph is chosen by the marks U+FE0E and
U+FE0F. -/
def clusterWidth (first : Char) (rest : List Char) : Nat :=
  match joining first with
  | .pictographic =>
    rest.foldl (fun w c => if c = '\uFE0E' then 1 else if c = '\uFE0F' then 2 else w)
      (charWidth first)
  | .regional | .consonant => charWidth first
  | _ => rest.foldl (fun w c => w + charWidth c) (charWidth first)

/-! ## Control sequences -/

/-- What a terminal is in the middle of. -/
inductive TerminalState where
  /-- Showing text. -/
  | ground
  | escape
  /-- An escape with further bytes to come. -/
  | escapeMore
  /-- A sequence with parameters. -/
  | control
  /-- A sequence with parameters that are over. -/
  | controlMore
  /-- A command that ends with a bell or a string terminator. -/
  | command
  /-- A string that is not shown. -/
  | hidden
deriving DecidableEq, Repr

namespace TerminalState

/-- The state after a byte that means the same in every state, if it is one. -/
def anywhere? (s : TerminalState) (b : UInt8) : Option TerminalState :=
  if b == 0x1B then some .escape
  else if b == 0x18 || b == 0x1A then some .ground
  else if s == .command then none
  else if b == 0x9B then some .control
  else if b == 0x9D then some .command
  else if b == 0x90 || b == 0x98 || b == 0x9E || b == 0x9F then some .hidden
  else if 0x80 ≤ b && b ≤ 0x9F then some .ground
  else none

/-- Whether a byte begins a character beyond ASCII, which ends any sequence but a command. -/
def isLead (s : TerminalState) (b : UInt8) : Bool := s != .command && 0xC2 ≤ b && b ≤ 0xF4

/-- The state after an escape and a byte. -/
def afterEscape (b : UInt8) : TerminalState :=
  if b < 0x20 || b == 0x7F then .escape
  else if b < 0x30 then .escapeMore
  else if b == byte '[' then .control
  else if b == byte ']' then .command
  else if b == byte 'P' || b == byte 'X' || b == byte '^' || b == byte '_' then .hidden
  else .ground

/-- The state after a byte. -/
def next (s : TerminalState) (b : UInt8) : TerminalState :=
  match s.anywhere? b with
  | some t => t
  | none =>
    if 0xA0 ≤ b && s != .command then .ground
    else
      match s with
      | .ground => .ground
      | .escape => afterEscape b
      | .escapeMore => if 0x30 ≤ b && b != 0x7F then .ground else .escapeMore
      | .control =>
        if 0x40 ≤ b && b != 0x7F then .ground
        else if 0x20 ≤ b && b < 0x30 then .controlMore
        else .control
      | .controlMore => if 0x30 ≤ b && b != 0x7F then .ground else .controlMore
      | .command => if b == 7 || b == 0x9C then .ground else .command
      | .hidden => .hidden

/-- Whether a byte is shown. -/
def shows (s : TerminalState) (b : UInt8) : Bool := s == .ground && 0x20 ≤ b && b ≤ 0x7E

end TerminalState

/-- The columns that glyphs take, of which the first `skip` are counted already. -/
def glyphsWidth (skip : Nat) : TerminalState → List Glyph → Nat
  | _, [] => 0
  | s, g :: rest =>
    match skip with
    | k + 1 => glyphsWidth k s rest
    | 0 =>
      match g.bytes with
      | [] => glyphsWidth 0 s rest
      | b :: _ =>
        if s.isLead b then
          let after := rest.map Glyph.char
          let n := (ClusterEnd.start (joining g.char)).reach after
          clusterWidth g.char (after.take n) + glyphsWidth n .ground rest
        else
          (if s.shows b then 1 else 0) + glyphsWidth 0 (g.bytes.foldl TerminalState.next s) rest

/-- The columns a text takes. -/
def textWidth (s : Bytes) : Nat := glyphsWidth 0 .ground (glyphs s)

end Scriptlet
