import Scriptlet.Document.Encoding
import Scriptlet.Document.Scalar

/-!
# Property: names and tags before a node, and directives before a document

An anchor gives a node a name by which aliases refer to it, a tag says what a scalar is. A tag is
written in full between angle brackets, or as a handle and a suffix; directives give handles their
meaning for a document.
-/

namespace Scriptlet.Document

/-! ## Anchors -/

/-- The characters that may follow a name, besides blanks and line breaks. -/
def nameEnds : List Char := ['?', ':', ',', ']', '\x7d', '%', '@', '`']

/-- The name after the first character of an anchor or an alias. -/
def Cursor.name (c : Cursor) : Option (List Char × Cursor) :=
  let (name, next) := c.step.run isNameChar
  if name.isEmpty then none
  else if endsWord next.rest || next.rest.head?.any nameEnds.contains then some (name, next)
  else none

/-! ## Tags -/

/-- The characters of tags besides letters and digits. -/
def tagMarks : List Char :=
  [';', '/', '?', ':', '@', '&', '=', '+', '$', ',', '.', '!', '~', '*', '\'', '(', ')', '[', ']']

/-- How many bytes the UTF-8 sequence takes that starts with this byte. -/
def sequenceWidth (b : Nat) : Option Nat :=
  if b < 0x80 then some 1
  else if b < 0xC0 then none
  else if b < 0xE0 then some 2
  else if b < 0xF0 then some 3
  else if b < 0xF8 then some 4
  else none

/-- The byte that a percent escape gives. -/
def escapedByte? : List Char → Option Nat
  | '%' :: a :: b :: _ => do
    let high ← hexValue? a
    let low ← hexValue? b
    return high * 16 + low
  | _ => none

/-- The bytes of the escapes that go on with a UTF-8 sequence, `n` of them. -/
def escapedTail? : Nat → List Char → Option Bytes
  | 0, _ => some []
  | n + 1, cs => do
    let b ← escapedByte? cs
    if 0x80 ≤ b ∧ b < 0xC0 then return b.toUInt8 :: (← escapedTail? n (cs.drop 3)) else none

/-- The bytes of the escapes at this place, which spell one character, and the place after them. -/
def Cursor.escaped (c : Cursor) : Option (Bytes × Cursor) := do
  let first ← escapedByte? c.rest
  let width ← sequenceWidth first
  let more ← escapedTail? (width - 1) (c.rest.drop 3)
  return (first.toUInt8 :: more, c.advance (3 * width))

/-- The characters of a tag from this place on, escapes resolved. -/
def tagTextFrom : Nat → Bytes → Cursor → Option (Bytes × Cursor)
  | 0, _, _ => none
  | bound + 1, out, c =>
    match c.rest with
    | [] => some (out, c)
    | ch :: _ =>
      if ch == '%' then
        match c.escaped with
        | some (bytes, next) => tagTextFrom bound (out ++ bytes) next
        | none => none
      else if isNameChar ch || tagMarks.contains ch then
        tagTextFrom bound (out ++ encodeChar ch) c.step
      else some (out, c)

/-- The characters of a tag, at least one. -/
def Cursor.tagText (c : Cursor) : Option (Bytes × Cursor) := do
  let (text, next) ← tagTextFrom (c.rest.length + 1) [] c
  if next.index = c.index then none else some (text, next)

/-- The handle at this place: an exclamation mark, and perhaps a name and a second one. -/
def Cursor.handle (c : Cursor) : Option (List Char × Cursor) :=
  if !c.isAt '!' then none
  else
    let (name, next) := c.step.run isNameChar
    if next.isAt '!' then some ('!' :: name ++ ['!'], next.step) else some ('!' :: name, next)

/-- A tag as a handle, empty if there is none, and a suffix. -/
structure TagMark where
  handle : Bytes
  suffix : Bytes
deriving DecidableEq, Repr

/-- A tag in full, after its exclamation mark and bracket. -/
def Cursor.fullTag (c : Cursor) : Option (TagMark × Cursor) := do
  let (suffix, next) ← (c.advance 2).tagText
  if next.isAt '>' then some (⟨[], suffix⟩, next.step) else none

/-- A tag with a handle, or with a suffix only, or neither of them. -/
def Cursor.shortTag (c : Cursor) : Option (TagMark × Cursor) := do
  let (handle, next) ← c.handle
  if 1 < handle.length ∧ handle.getLast? = some '!' then
    let (suffix, next) ← next.tagText
    return (⟨encoded handle, suffix⟩, next)
  else
    let (more, next) ← tagTextFrom (next.rest.length + 1) (encoded (handle.drop 1)) next
    return (if more.isEmpty then ⟨[], utf8 "!"⟩ else ⟨utf8 "!", more⟩, next)

/-- A tag, which must stand alone. -/
def Cursor.tag (c : Cursor) : Option (TagMark × Cursor) := do
  let (mark, next) ← if c.step.isAt '<' then c.fullTag else c.shortTag
  if endsWord next.rest then some (mark, next) else none

/-! ## Directives -/

/-- What a directive says. -/
inductive Directive where
  /-- The version of the format. -/
  | version (major minor : Nat)
  /-- What a handle stands for. -/
  | handle (name stem : Bytes)
deriving DecidableEq, Repr

/-- A number of one digit or two. -/
def Cursor.versionNumber (c : Cursor) : Option (Nat × Cursor) :=
  let (ds, next) := c.run Char.isDigit
  if ds.isEmpty || 2 < ds.length then none
  else some (ds.foldl (fun n d => n * 10 + (d.toNat - '0'.toNat)) 0, next)

/-- The version of the format. -/
def Cursor.version (c : Cursor) : Option (Directive × Cursor) := do
  let (major, c) ← c.versionNumber
  if !c.isAt '.' then none
  else
    let (minor, c) ← c.step.versionNumber
    return (.version major minor, c)

/-- A handle and what it stands for. -/
def Cursor.handleMeaning (c : Cursor) : Option (Directive × Cursor) := do
  let (name, c) ← c.handle
  if name != ['!'] && (name.getLast? != some '!') then none
  else if !c.rest.head?.any isBlank then none
  else
    let (stem, c) ← c.skipBlanks.tagText
    if endsWord c.rest then some (.handle (encoded name) stem, c) else none

/-- A directive, which takes a line of its own. -/
def Cursor.directive (c : Cursor) : Option (Directive × Cursor) := do
  let (name, c) := c.step.run isNameChar
  if !endsWord c.rest then none
  else
    let c := c.skipBlanks
    let (said, c) ←
      if name == "YAML".toList then c.version
      else if name == "TAG".toList then c.handleMeaning
      else none
    return (said, ← c.lineEnd?)

end Scriptlet.Document
