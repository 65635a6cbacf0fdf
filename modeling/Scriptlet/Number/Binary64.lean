import Scriptlet.Number.Integer

/-!
# Binary64: numbers with 53 significant bits

A finite number is a sign, a mantissa below 2^53 and an exponent of two. Numbers come from exact
ratios by rounding to the nearest, a tie going to the even mantissa; what is too large becomes
infinite. The sign of zero is kept.
-/

namespace Scriptlet

/-- A binary floating-point number: `± mantissa · 2 ^ exponent`, an infinity, or no number. -/
inductive Binary64 where
  | finite (negative : Bool) (mantissa : Nat) (exponent : Int)
  | infinite (negative : Bool)
  | nan
deriving DecidableEq, Repr, Inhabited

namespace Binary64

/-- Mantissas have 53 bits, so they stay below this number. -/
def mantissaBound : Nat := 9007199254740992

/-- The exponent of the smallest numbers. -/
def minExponent : Int := -1074

/-- The exponent of the largest numbers. -/
def maxExponent : Int := 971

/-- Zero. -/
def zero : Binary64 := .finite false 0 minExponent

/-- `num / den` in units of `2 ^ exponent`, as a numerator and a denominator. -/
def scaled (num den : Nat) (exponent : Int) : Nat × Nat :=
  if 0 ≤ exponent then (num, den * Nat.pow 2 exponent.toNat)
  else (num * Nat.pow 2 (-exponent).toNat, den)

/-- The whole number nearest to `num / den`, the even one in a tie. -/
def roundDiv (num den : Nat) : Nat :=
  let q := num / den
  let r := 2 * (num % den)
  if r < den then q else if den < r then q + 1 else q + q % 2

/-- The exponent at which `num / den` has 53 significant bits, or the smallest one. -/
def fittingExponent (num den : Nat) : Int :=
  let low := max ((Nat.log2 num : Int) - Nat.log2 den - 53) minExponent
  let (n, d) := scaled num den low
  if mantissaBound ≤ n / d then low + 1 else low

/-- The number nearest to `± num / den`, for a positive `den`. -/
def ofRatio (negative : Bool) (num den : Nat) : Binary64 :=
  if num = 0 then .finite negative 0 minExponent
  else
    let exponent := fittingExponent num den
    let (n, d) := scaled num den exponent
    let m := roundDiv n d
    let (m, exponent) :=
      if m = mantissaBound then (mantissaBound / 2, exponent + 1) else (m, exponent)
    if maxExponent < exponent then .infinite negative else .finite negative m exponent

/-- The number nearest to `± digits · 10 ^ exponent`. -/
def ofDecimal (negative : Bool) (digits : Nat) (exponent : Int) : Binary64 :=
  if 0 ≤ exponent then ofRatio negative (digits * Nat.pow 10 exponent.toNat) 1
  else ofRatio negative digits (Nat.pow 10 (-exponent).toNat)

/-- The number nearest to an integer. -/
def ofInt (i : Int) : Binary64 := ofRatio (i < 0) i.natAbs 1

/-- Whether the number lies below zero; negative zero does not. -/
def isBelowZero : Binary64 → Bool
  | .finite negative m _ => negative && m != 0
  | .infinite negative => negative
  | .nan => false

/-- Whether the number is zero or more. -/
def isAtLeastZero : Binary64 → Bool
  | .nan => false
  | x => !x.isBelowZero

/-- The whole part of the magnitude of a finite number. -/
def floorMagnitude (mantissa : Nat) (exponent : Int) : Nat :=
  if 0 ≤ exponent then mantissa * Nat.pow 2 exponent.toNat
  else mantissa / Nat.pow 2 (-exponent).toNat

/-- The integer towards zero. What does not fit 64 bits, or is no number, gives the least one. -/
def truncate : Binary64 → Int64
  | .finite negative m e =>
    let n : Int := floorMagnitude m e
    let i := if negative then -n else n
    if -(signedBound : Int) ≤ i ∧ i < signedBound then Int64.ofInt i else Int64.minValue
  | _ => Int64.minValue

/-! ## Reading -/

/-- Digits with at most one point among them: their value in the given base, how many stand after
the point, and what follows them. -/
structure Mantissa where
  value : Nat := 0
  fraction : Nat := 0
  seenPoint : Bool := false
  seenDigit : Bool := false
  rest : Bytes := []

/-- Reads the digits and the point of a number; underscores are skipped here and checked later. -/
def readMantissa (base : Nat) (m : Mantissa) : Bytes → Mantissa
  | [] => { m with rest := [] }
  | b :: rest =>
    if b == byte '_' then readMantissa base m rest
    else if b == byte '.' then
      if m.seenPoint then { m with rest := b :: rest }
      else readMantissa base { m with seenPoint := true } rest
    else
      match digitValue? b with
      | some d =>
        if d < base then
          readMantissa base
            { m with
              value := m.value * base + d
              fraction := if m.seenPoint then m.fraction + 1 else m.fraction
              seenDigit := true } rest
        else { m with rest := b :: rest }
      | none => { m with rest := b :: rest }

/-- Reads the digits of an exponent up to the end; one beyond ten thousand is not read further. -/
def readExponentDigits (n : Nat) : Bytes → Option Nat
  | [] => some n
  | b :: rest =>
    if b == byte '_' then readExponentDigits n rest
    else if 48 ≤ b && b ≤ 57 then
      readExponentDigits (if n < 10000 then n * 10 + (b.toNat - 48) else n) rest
    else none

/-- Reads an exponent after its mark: an optional sign and at least one digit. -/
def readExponent (s : Bytes) : Option Int :=
  let (negative, digits) := splitSign s
  match digits with
  | b :: _ =>
    if 48 ≤ b && b ≤ 57 then
      (readExponentDigits 0 digits).map fun n => if negative then -(n : Int) else n
    else none
  | [] => none

/-- The names of infinity. -/
def infinityNames : List Bytes := [utf8 "inf", utf8 "infinity"]

/-- The number that `value · base ^ -fraction`, moved by `exponent` places, stands for. A number
far beyond the largest or far below the smallest is not computed. -/
def assemble (negative hexadecimal : Bool) (m : Mantissa) (exponent : Int) : Binary64 :=
  if m.value = 0 then .finite negative 0 minExponent
  else if hexadecimal then
    let e := exponent - 4 * m.fraction
    if 5000 < (Nat.log2 m.value : Int) + e then .infinite negative
    else if (Nat.log2 m.value : Int) + e < -5000 then .finite negative 0 minExponent
    else
      let (n, d) := scaled m.value 1 (-e)
      ofRatio negative n d
  else
    let e := exponent - m.fraction
    let places : Int := (decimal m.value).length + e
    if 400 < places then .infinite negative
    else if places < -400 then .finite negative 0 minExponent
    else ofDecimal negative m.value e

/-- Reads a number in digits: a sign, then decimal digits with an optional point and exponent, or
hexadecimal digits with a binary exponent. -/
def readDigital (s : Bytes) : Except NumberFault Binary64 :=
  let (negative, body) := splitSign s
  let (hexadecimal, digits) := match body with
    | 48 :: mark :: b :: rest =>
      if Bytes.lowerByte mark == byte 'x' then (true, b :: rest) else (false, body)
    | _ => (false, body)
  let m := readMantissa (if hexadecimal then 16 else 10) {} digits
  let exponent? : Option Int := match m.rest with
    | [] => if hexadecimal then none else some 0
    | b :: rest =>
      if Bytes.lowerByte b == (if hexadecimal then byte 'p' else byte 'e') then readExponent rest
      else none
  match exponent? with
  | none => .error .malformed
  | some e =>
    if !m.seenDigit then .error .malformed
    else if s.contains (byte '_') && !underscoresSeparate s then .error .malformed
    else
      match assemble negative hexadecimal m e with
      | .infinite _ => .error .outOfRange
      | x => .ok x

/-- Reads a number: in digits, `nan`, or a name of infinity with an optional sign, in any case. -/
def read (s : Bytes) : Except NumberFault Binary64 :=
  let (negative, body) := splitSign s
  if infinityNames.contains (Bytes.lower body) then .ok (.infinite negative)
  else if Bytes.lower s = utf8 "nan" then .ok .nan
  else readDigital s

end Binary64
end Scriptlet
