/-!
# Bytes: texts as byte strings

Program sources, string values and everything that is printed are byte strings. They need not be
well-formed UTF-8, and all positions are byte offsets, so a text here is the list of its bytes.
-/

namespace Scriptlet

/-- A text as the bytes it is made of. -/
abbrev Bytes := List UInt8

/-- The bytes of a literal. -/
def utf8 (s : String) : Bytes := s.toByteArray.data.toList

/-- The byte of an ASCII character. -/
def byte (c : Char) : UInt8 := c.toNat.toUInt8

namespace Bytes

/-- `s` repeated `n` times. -/
def times (n : Nat) (s : Bytes) : Bytes := (List.replicate n s).flatten

/-- Drops `mark` from the end of `s`, at most once. -/
def dropEnd (mark s : Bytes) : Bytes :=
  if mark.isSuffixOf s then s.take (s.length - mark.length) else s

/-- The pieces of `s` between separator bytes: always one more piece than separators. -/
def split (sep : UInt8) (s : Bytes) : List Bytes :=
  let (last, pieces) := s.foldl
    (fun (cur, done) b => if b == sep then ([], cur.reverse :: done) else (b :: cur, done))
    (([] : Bytes), ([] : List Bytes))
  (last.reverse :: pieces).reverse

/-- Cuts `s` at its first `sep`: what stands before it, and what follows if it occurs. -/
def cut (sep : UInt8) (s : Bytes) : Bytes × Option Bytes :=
  let front := s.takeWhile (· != sep)
  match s.drop front.length with
  | [] => (front, none)
  | _ :: rest => (front, some rest)

/-- The first position at which `needle` occurs in `s`. -/
def findSub (needle : Bytes) : Bytes → Nat → Option Nat
  | [], i => if needle.isEmpty then some i else none
  | b :: r, i => if needle.isPrefixOf (b :: r) then some i else findSub needle r (i + 1)

/-- Every occurrence of `old` (not empty), from the left, becomes `new`. -/
def replaceAll (old new : Bytes) (s : Bytes) : Bytes :=
  let rec go (skip : Nat) : Bytes → Bytes → Bytes
    | [], out => out.reverse
    | b :: r, out =>
      match skip with
      | k + 1 => go k r out
      | 0 =>
        if old.isPrefixOf (b :: r) then go (old.length - 1) r (new.reverse ++ out)
        else go 0 r (b :: out)
  go 0 s []

/-- Byte-wise order, a proper beginning of a text coming first. -/
def order : Bytes → Bytes → Ordering
  | [], [] => .eq
  | [], _ :: _ => .lt
  | _ :: _, [] => .gt
  | a :: r, b :: s => if a < b then .lt else if b < a then .gt else order r s

/-- ASCII letters in lower case, everything else as it is. -/
def lowerByte (b : UInt8) : UInt8 := if 0x41 ≤ b && b ≤ 0x5A then b + 0x20 else b

/-- The text with its ASCII letters in lower case. -/
def lower (s : Bytes) : Bytes := s.map lowerByte

/-- A hexadecimal digit, in lower case. -/
def hexDigit (n : Nat) : UInt8 := if n < 10 then (48 + n).toUInt8 else (87 + n).toUInt8

/-- `n` in exactly `width` lower-case hexadecimal digits, high digits dropped. -/
def hex (width n : Nat) : Bytes :=
  ((List.range width).map fun i => hexDigit (n / Nat.pow 16 i % 16)).reverse

end Bytes

/-! ## Decimal text -/

/-- A natural number in decimal digits without leading zeros. -/
def decimal (n : Nat) : Bytes := (Nat.toDigits 10 n).map byte

/-- An integer in decimal digits, negative ones after a minus sign. -/
def signedDecimal (i : Int) : Bytes :=
  if i < 0 then byte '-' :: decimal i.natAbs else decimal i.toNat

end Scriptlet
