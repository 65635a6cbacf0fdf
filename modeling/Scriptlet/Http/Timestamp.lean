import Scriptlet.Text.Bytes

/-!
# Timestamp: moments as they are written

A moment is a calendar date, a time of day to the nanosecond and an offset from universal time in
minutes. It is written with as many digits of the second's fraction as it needs.
-/

namespace Scriptlet

/-- A moment at a place with an offset from universal time. -/
structure Timestamp where
  /-- Year, month, day, hour, minute and second, in the fixed form with a `T` between. -/
  dateTime : Bytes
  nanoseconds : Nat := 0
  /-- Minutes east of universal time. -/
  offset : Int := 0
deriving DecidableEq, Repr

namespace Timestamp

/-- A number in exactly two digits. -/
def twoDigits (n : Nat) : Bytes := [byte '0' + (n / 10 % 10).toUInt8, byte '0' + (n % 10).toUInt8]

/-- The digits of the second's fraction, without zeros at the end. -/
def fraction (n : Nat) : Bytes :=
  let digits := decimal n
  let padded := List.replicate (9 - digits.length) (byte '0') ++ digits
  match (padded.reverse.dropWhile (· == byte '0')).reverse with
  | [] => []
  | ds => byte '.' :: ds

/-- The moment as it is written. -/
def render (t : Timestamp) : Bytes :=
  let zone :=
    if t.offset = 0 then utf8 "Z"
    else
      byte (if t.offset < 0 then '-' else '+') ::
        (twoDigits (t.offset.natAbs / 60) ++ byte ':' :: twoDigits (t.offset.natAbs % 60))
  t.dateTime ++ fraction t.nanoseconds ++ zone

/-- Two digits as a number. -/
def readTwo? (s : Bytes) : Option Nat :=
  match s with
  | [a, b] =>
    if 48 ≤ a && a ≤ 57 && 48 ≤ b && b ≤ 57 then some ((a.toNat - 48) * 10 + (b.toNat - 48))
    else none
  | _ => none

/-- The offset written at the end of a moment. -/
def readZone? (s : Bytes) : Option Int :=
  if s = utf8 "Z" then some 0
  else
    match s with
    | sign :: rest => do
      let hours ← readTwo? (rest.take 2)
      let minutes ← readTwo? (rest.drop 3)
      let total : Int := hours * 60 + minutes
      if rest[2]? != some (byte ':') then none
      else if sign == byte '+' then some total
      else if sign == byte '-' then some (-total)
      else none
    | [] => none

/-- Reads a moment; digits beyond the nanosecond are dropped. -/
def read? (s : Bytes) : Option Timestamp :=
  let rest := s.drop 19
  let isDigit (b : UInt8) : Bool := 48 ≤ b && b ≤ 57
  let (digits, zone) := match rest with
    | 46 :: more => (more.takeWhile isDigit, more.dropWhile isDigit)
    | _ => ([], rest)
  let nine := digits.take 9 ++ List.replicate (9 - digits.length) (byte '0')
  (readZone? zone).map fun offset =>
    ⟨s.take 19, nine.foldl (fun n b => n * 10 + (b.toNat - 48)) 0, offset⟩

end Timestamp
end Scriptlet
