import Scriptlet.Number.Integer

/-!
# Range: parts of a file

A request can ask for parts of a file: from one byte to another, from one byte on, or so many bytes
at the end. Parts that begin beyond the end are left out; that none is left is a fault of its own.
-/

namespace Scriptlet

/-- A part of a file. -/
structure ByteRange where
  start : Nat
  length : Nat
deriving DecidableEq, Repr

/-- Why a request for parts cannot be met. -/
inductive RangeFault where
  | malformed
  /-- All parts begin beyond the end of the file. -/
  | beyond
deriving DecidableEq, Repr

/-- The fault in words. -/
def RangeFault.message : RangeFault → Bytes
  | .malformed => utf8 "invalid range"
  | .beyond => utf8 "invalid range: failed to overlap"

namespace ByteRange

/-- Drops ASCII blanks from both ends. -/
def trim (s : Bytes) : Bytes :=
  let isSpace (b : UInt8) : Bool := b == 32 || b == 9 || b == 10 || b == 13
  ((s.dropWhile isSpace).reverse.dropWhile isSpace).reverse

/-- A number that is not below zero. -/
def natural? (s : Bytes) : Option Nat :=
  match readInt64 s with
  | .ok n => if 0 ≤ n then some n.toInt.toNat else none
  | .error _ => none

/-- What one item of a request comes to. -/
inductive Item where
  | part (r : ByteRange)
  | beyond
  | malformed

/-- So many bytes at the end of a file. -/
def ofEnd (size : Nat) (count : Bytes) : Item :=
  if count.head? == some (byte '-') then .malformed
  else
    match natural? count with
    | some n => .part ⟨size - n, min n size⟩
    | none => .malformed

/-- The bytes of a file from `first` to `last`, or to its end if `last` is empty. -/
def ofEnds (size : Nat) (first last : Bytes) : Item :=
  match natural? first with
  | none => .malformed
  | some start =>
    if size ≤ start then .beyond
    else if last.isEmpty then .part ⟨start, size - start⟩
    else
      match natural? last with
      | none => .malformed
      | some stop =>
        if stop < start then .malformed else .part ⟨start, min stop (size - 1) + 1 - start⟩

/-- Reads one item of a request. -/
def item (size : Nat) (s : Bytes) : Item :=
  match Bytes.cut (byte '-') s with
  | (_, none) => .malformed
  | (first, some last) =>
    let first := trim first
    let last := trim last
    if first.isEmpty then ofEnd size last else ofEnds size first last

/-- Gathers the parts that items come to. -/
def gather : List Item → Option (List ByteRange × Bool)
  | [] => some ([], false)
  | .malformed :: _ => none
  | .beyond :: rest => (gather rest).map fun (parts, _) => (parts, true)
  | .part r :: rest => (gather rest).map fun (parts, beyond) => (r :: parts, beyond)

/-- The parts of a file of the given size that a header asks for; none if it is empty. -/
def readAll (size : Nat) (header : Bytes) : Except RangeFault (List ByteRange) :=
  let unit := utf8 "bytes="
  if header.isEmpty then .ok []
  else if !unit.isPrefixOf header then .error .malformed
  else
    let pieces := (Bytes.split (byte ',') (header.drop unit.length)).map trim
    match gather ((pieces.filter (!·.isEmpty)).map (item size)) with
    | none => .error .malformed
    | some ([], true) => .error .beyond
    | some (parts, _) => .ok parts

/-- The place of a part within a file of the given size, as a header tells it. -/
def place (size : Nat) (r : ByteRange) : Bytes :=
  utf8 "bytes " ++ decimal r.start ++ utf8 "-" ++
    signedDecimal ((r.start : Int) + r.length - 1) ++ utf8 "/" ++ decimal size

/-- The bytes of a part. -/
def of (contents : Bytes) (r : ByteRange) : Bytes := (contents.drop r.start).take r.length

/-- Several parts in one body, each with its type and place, between lines that are not in them. -/
def bundle (boundary kind contents : Bytes) (rs : List ByteRange) : Bytes :=
  let line := utf8 "\r\n"
  let parts := rs.map fun r =>
    utf8 "--" ++ boundary ++ line ++ utf8 "Content-Range: " ++ r.place contents.length ++ line ++
      utf8 "Content-Type: " ++ kind ++ line ++ line ++ r.of contents ++ line
  parts.flatten ++ utf8 "--" ++ boundary ++ utf8 "--" ++ line

end ByteRange
end Scriptlet
