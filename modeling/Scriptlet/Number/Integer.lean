import Scriptlet.Text.Bytes

/-!
# Integer: reading integers from text

Two readers: plain decimal, and literals that may carry a base mark (`0x`, `0o`, `0b`, or a leading
zero for octal) and underscores between digits. Both report the first obstacle met from the left,
so a text whose digits already overflow is out of range whatever follows them.
-/

namespace Scriptlet

/-- Why a number could not be read. -/
inductive NumberFault where
  /-- The text is not a number. -/
  | malformed
  /-- The number does not fit. -/
  | outOfRange
deriving DecidableEq, Repr

/-- The wording of the fault. -/
def NumberFault.message : NumberFault → Bytes
  | .malformed => utf8 "invalid syntax"
  | .outOfRange => utf8 "value out of range"

/-- The value of a digit in any base up to 36, letters of both cases standing for 10 and up. -/
def digitValue? (b : UInt8) : Option Nat :=
  let c := Bytes.lowerByte b
  if 48 ≤ c && c ≤ 57 then some (c.toNat - 48)
  else if 97 ≤ c && c ≤ 122 then some (c.toNat - 87)
  else none

/-- The magnitudes of 64 unsigned bits end before this one. -/
def unsignedBound : Nat := 18446744073709551616

/-- The magnitudes of 64 signed bits end before this one, or with it below zero. -/
def signedBound : Nat := 9223372036854775808

/-- Reads digits of the given base after the value `n`, refusing to leave 64 unsigned bits. -/
def readDigits (base : Nat) (underscores : Bool) : Nat → Bytes → Except NumberFault Nat
  | n, [] => .ok n
  | n, b :: rest =>
    if underscores && b == byte '_' then readDigits base underscores n rest
    else
      match digitValue? b with
      | none => .error .malformed
      | some d =>
        if base ≤ d then .error .malformed
        else if unsignedBound ≤ n * base + d then .error .outOfRange
        else readDigits base underscores (n * base + d) rest

/-- Splits off a sign: whether it is a minus, and the rest. -/
def splitSign : Bytes → Bool × Bytes
  | b :: rest =>
    if b == byte '-' then (true, rest)
    else if b == byte '+' then (false, rest)
    else (false, b :: rest)
  | [] => (false, [])

/-- A magnitude with its sign, if the number fits 64 signed bits. -/
def signed64 (negative : Bool) (n : Nat) : Except NumberFault Int64 :=
  if negative then
    if n ≤ signedBound then .ok (Int64.ofInt (-(n : Int))) else .error .outOfRange
  else if n < signedBound then .ok (Int64.ofInt n) else .error .outOfRange

/-- Reads an optional sign and at least one decimal digit. -/
def readInt64 (s : Bytes) : Except NumberFault Int64 :=
  let (negative, digits) := splitSign s
  if digits.isEmpty then .error .malformed
  else
    match readDigits 10 false 0 digits with
    | .error e => .error e
    | .ok n => signed64 negative n

/-! ## Literals with base marks and underscores -/

/-- The base a literal's mark selects, and its digits. -/
def splitBase : Bytes → Nat × Bytes
  | 48 :: mark :: b :: rest =>
    let c := Bytes.lowerByte mark
    if c == byte 'b' then (2, b :: rest)
    else if c == byte 'o' then (8, b :: rest)
    else if c == byte 'x' then (16, b :: rest)
    else (8, mark :: b :: rest)
  | 48 :: rest => (8, rest)
  | s => (10, s)

/-- What an underscore may stand after: a digit, or nothing it could separate. -/
inductive Separable where
  | start | digit | underscore | other
deriving DecidableEq

/-- Whether every underscore stands between two digits, a base mark counting as a digit. -/
def underscoresSeparate (s : Bytes) : Bool :=
  let (_, body) := splitSign s
  let (hexadecimal, first, rest) :=
    match body with
    | 48 :: mark :: rest =>
      let c := Bytes.lowerByte mark
      if c == byte 'b' || c == byte 'o' then (false, Separable.digit, rest)
      else if c == byte 'x' then (true, Separable.digit, rest)
      else (false, Separable.start, body)
    | _ => (false, Separable.start, body)
  let isDigit (b : UInt8) : Bool :=
    (48 ≤ b && b ≤ 57) ||
      (hexadecimal && 97 ≤ Bytes.lowerByte b && Bytes.lowerByte b ≤ 102)
  let rec go : Separable → Bytes → Bool
    | seen, [] => seen != .underscore
    | seen, b :: rest =>
      if isDigit b then go .digit rest
      else if b == byte '_' then seen == .digit && go .underscore rest
      else seen != .underscore && go .other rest
  go first rest

/-- Reads an integer literal with optional sign, base mark and underscores. -/
def readLiteral64 (s : Bytes) : Except NumberFault Int64 :=
  let (negative, body) := splitSign s
  if body.isEmpty then .error .malformed
  else
    let (base, digits) := splitBase body
    match readDigits base true 0 digits with
    | .error e => .error e
    | .ok n =>
      if body.contains (byte '_') && !underscoresSeparate body then .error .malformed
      else signed64 negative n

end Scriptlet
