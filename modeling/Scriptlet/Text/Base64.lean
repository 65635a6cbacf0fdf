import Scriptlet.Text.Bytes

/-!
# Base64: bytes written in letters

Four characters stand for three bytes. The last group is filled up with equals signs, and line
breaks are of no meaning.
-/

namespace Scriptlet
namespace Base64

/-- The value of a character. -/
def value? (b : UInt8) : Option Nat :=
  if 65 ≤ b && b ≤ 90 then some (b.toNat - 65)
  else if 97 ≤ b && b ≤ 122 then some (b.toNat - 71)
  else if 48 ≤ b && b ≤ 57 then some (b.toNat + 4)
  else if b == byte '+' then some 62
  else if b == byte '/' then some 63
  else none

/-- The bytes that groups of four characters stand for. -/
def groups? : Bytes → Option Bytes
  | [] => some []
  | [a, b, 61, 61] => do
    let n := (← value? a) * 64 + (← value? b)
    return [(n / 16).toUInt8]
  | [a, b, c, 61] => do
    let n := ((← value? a) * 64 + (← value? b)) * 64 + (← value? c)
    return [(n / 1024).toUInt8, (n / 4).toUInt8]
  | a :: b :: c :: d :: rest => do
    let n := (((← value? a) * 64 + (← value? b)) * 64 + (← value? c)) * 64 + (← value? d)
    return (n / 65536).toUInt8 :: (n / 256).toUInt8 :: n.toUInt8 :: (← groups? rest)
  | _ => none

/-- The bytes that a text stands for. -/
def decode? (s : Bytes) : Option Bytes :=
  groups? (s.filter fun b => b != byte '\n' && b != byte '\r')

end Base64
end Scriptlet
