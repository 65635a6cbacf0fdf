import Scriptlet.Number.Binary64
import Scriptlet.Text.Bytes

/-!
# Duration: lengths of time

A duration is written as a sign and one or more decimal numbers with units, `1h2m3.5s`, and held in
whole nanoseconds. Fractions of a unit are computed with binary numbers and cut.
-/

namespace Scriptlet

/-- Why a text is not a duration. -/
inductive DurationFault where
  | invalid (text : Bytes)
  | missingUnit (text : Bytes)
  | unknownUnit (unit text : Bytes)
deriving DecidableEq, Repr

namespace Duration

/-- A text in quotes: quotes and backslashes after a backslash, control and non-ASCII bytes in
hexadecimal. -/
def quote (s : Bytes) : Bytes :=
  let body := s.flatMap fun b =>
    if b < 0x20 || 0x80 ≤ b then utf8 "\\x" ++ Bytes.hex 2 b.toNat
    else if b == byte '"' || b == byte '\\' then [byte '\\', b]
    else [b]
  byte '"' :: (body ++ [byte '"'])

/-- The units and their nanoseconds; micro is written with either of the two signs. -/
def units : List (Bytes × Nat) := [
  (utf8 "ns", 1),
  (utf8 "us", 1000),
  (utf8 "\u00B5s", 1000),
  (utf8 "\u03BCs", 1000),
  (utf8 "ms", 1000000),
  (utf8 "s", 1000000000),
  (utf8 "m", 60000000000),
  (utf8 "h", 3600000000000)]

/-- Whether a byte is a decimal digit. -/
def isDigit (b : UInt8) : Bool := 48 ≤ b && b ≤ 57

/-- The value of decimal digits. -/
def digitsValue (ds : Bytes) : Nat := ds.foldl (fun n b => n * 10 + (b.toNat - 48)) 0

/-- The first digits of a fraction whose value fits 63 bits, and how many they are; the digits after
them are dropped. -/
def leadingFraction : Nat → Nat → Bytes → Nat × Nat
  | x, k, [] => (x, k)
  | x, k, b :: rest =>
    let y := x * 10 + (b.toNat - 48)
    if (signedBound - 1) / 10 < x || signedBound < y then (x, k) else leadingFraction y (k + 1) rest

/-- The product of two finite numbers. -/
def times (a b : Binary64) : Binary64 :=
  match a, b with
  | .finite s m e, .finite t n f =>
    let (num, den) := Binary64.scaled (m * n) 1 (-(e + f))
    Binary64.ofRatio (s != t) num den
  | _, _ => .nan

/-- The nanoseconds in `x / 10 ^ k` of a unit, each operation rounded. -/
def fractionOf (unit x k : Nat) : Nat :=
  match times (Binary64.ofInt x) (Binary64.ofRatio false unit (Nat.pow 10 k)) with
  | .finite _ m e => Binary64.floorMagnitude m e
  | _ => 0

/-- One number with its unit: its nanoseconds and what follows it. -/
def readPart (whole : Bytes) (s : Bytes) : Except DurationFault (Nat × Bytes) :=
  let front := s.takeWhile isDigit
  let rest := s.drop front.length
  let n := digitsValue front
  let (fraction, afterPoint) := match rest with
    | b :: more =>
      if b == byte '.' then (more.takeWhile isDigit, more.dropWhile isDigit) else ([], b :: more)
    | [] => ([], [])
  if signedBound < n || (front.isEmpty && fraction.isEmpty) then .error (.invalid whole)
  else
    let name := afterPoint.takeWhile fun b => !(isDigit b || b == byte '.')
    if name.isEmpty then .error (.missingUnit whole)
    else
      match units.lookup name with
      | none => .error (.unknownUnit name whole)
      | some unit =>
        let (x, k) := leadingFraction 0 0 fraction
        let total := n * unit + if 0 < x then fractionOf unit x k else 0
        if signedBound / unit < n || signedBound < total then .error (.invalid whole)
        else .ok (total, afterPoint.drop name.length)

/-- The numbers with units up to the end, added up. Each takes at least one byte. -/
def readParts (whole : Bytes) : Nat → Nat → Bytes → Except DurationFault Nat
  | _, total, [] => .ok total
  | 0, _, _ :: _ => .error (.invalid whole)
  | bound + 1, total, s => do
    let (n, rest) ← readPart whole s
    if signedBound < total + n then .error (.invalid whole)
    else readParts whole bound (total + n) rest

/-- Reads a duration in nanoseconds. -/
def read (s : Bytes) : Except DurationFault Int64 :=
  let (negative, body) := splitSign s
  if body = utf8 "0" then .ok 0
  else if body.isEmpty then .error (.invalid s)
  else do
    let n ← readParts s body.length 0 body
    if negative then return Int64.ofInt (-(n : Int))
    else if signedBound ≤ n then .error (.invalid s)
    else return Int64.ofInt n

end Duration

/-- The fault in words. -/
def DurationFault.message : DurationFault → Bytes
  | .invalid s => utf8 "time: invalid duration " ++ Duration.quote s
  | .missingUnit s => utf8 "time: missing unit in duration " ++ Duration.quote s
  | .unknownUnit unit s =>
    utf8 "time: unknown unit " ++ Duration.quote unit ++ utf8 " in duration " ++ Duration.quote s

end Scriptlet
