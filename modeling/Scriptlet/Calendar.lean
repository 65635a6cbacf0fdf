import Scriptlet.Text.Bytes

/-!
# Calendar: dates and times of day in text

Headers give moments to the second, in universal time, in one of three layouts. A layout is a list
of pieces that are read one after the other. Names of days and months are taken in any letter case,
and the name of the day is not compared with the date. Settings files write moments in digits only.
-/

namespace Scriptlet
namespace Calendar

/-- What a layout is made of. -/
inductive Piece where
  /-- These bytes; a blank stands for any number of blanks. -/
  | mark (text : Bytes)
  | dayName | longDayName | monthName
  /-- The day of the month, in two digits or, after a blank, in one. -/
  | day (padded : Bool)
  | year | shortYear | hour | minute | second
  /-- The name of a time zone. -/
  | zone
deriving DecidableEq, Repr

/-- The names of the days. -/
def dayNames : List Bytes :=
  [utf8 "sunday", utf8 "monday", utf8 "tuesday", utf8 "wednesday", utf8 "thursday", utf8 "friday",
    utf8 "saturday"]

/-- The short names of the months. -/
def monthNames : List Bytes :=
  [utf8 "jan", utf8 "feb", utf8 "mar", utf8 "apr", utf8 "may", utf8 "jun", utf8 "jul", utf8 "aug",
    utf8 "sep", utf8 "oct", utf8 "nov", utf8 "dec"]

/-- The three layouts. -/
def layouts : List (List Piece) :=
  let clock := [.hour, .mark (utf8 ":"), .minute, .mark (utf8 ":"), .second]
  let blank := Piece.mark (utf8 " ")
  [[.dayName, .mark (utf8 ", "), .day true, blank, .monthName, blank, .year, blank] ++ clock ++
      [.mark (utf8 " GMT")],
    [.longDayName, .mark (utf8 ", "), .day true, .mark (utf8 "-"), .monthName, .mark (utf8 "-"),
      .shortYear, blank] ++ clock ++ [blank, .zone],
    [.dayName, blank, .monthName, blank, .day false, blank] ++ clock ++ [blank, .year]]

/-- A date and a time of day. -/
structure Moment where
  year : Nat := 0
  /-- The month, the first being zero. -/
  month : Nat := 0
  day : Nat := 0
  hour : Nat := 0
  minute : Nat := 0
  second : Nat := 0
deriving DecidableEq, Repr

/-- A decimal digit. -/
def isDigitByte (b : UInt8) : Bool := 48 ≤ b && b ≤ 57

/-- The value of digits. -/
def value (ds : Bytes) : Nat := ds.foldl (fun n b => n * 10 + (b.toNat - 48)) 0

/-- Exactly `n` digits, and the rest. -/
def digits? (n : Nat) (s : Bytes) : Option (Nat × Bytes) :=
  let ds := s.take n
  if ds.length = n && ds.all isDigitByte then some (value ds, s.drop n) else none

/-- One digit or two, and the rest. -/
def upToTwo? (s : Bytes) : Option (Nat × Bytes) :=
  match digits? 2 s with
  | some found => some found
  | none => digits? 1 s

/-- Which of the names a text begins with, and the rest. -/
def name? (names : List Bytes) (s : Bytes) : Option (Nat × Bytes) :=
  match names.findIdx? (fun n => n.isPrefixOf (Bytes.lower s)) with
  | some i => some (i, s.drop ((names[i]?).getD []).length)
  | none => none

/-- Drops what a mark stands for. -/
def dropMark? : Bytes → Bytes → Option Bytes
  | [], s => some s
  | b :: mark, s =>
    if b == byte ' ' then
      match s with
      | [] => dropMark? mark []
      | c :: _ => if c == byte ' ' then dropMark? mark (s.dropWhile (· == byte ' ')) else none
    else
      match s with
      | [] => none
      | c :: rest => if c == b then dropMark? mark rest else none

/-- Drops the fraction of a second. -/
def dropFraction (s : Bytes) : Bytes :=
  match s with
  | mark :: b :: rest =>
    if (mark == byte '.' || mark == byte ',') && isDigitByte b then rest.dropWhile isDigitByte
    else s
  | _ => s

/-- Reads one piece. -/
def Piece.read? (p : Piece) (m : Moment) (s : Bytes) : Option (Moment × Bytes) :=
  let number (found : Option (Nat × Bytes)) (bound : Nat) (put : Nat → Moment) :
      Option (Moment × Bytes) :=
    match found with
    | some (n, rest) => if n < bound then some (put n, rest) else none
    | none => none
  match p with
  | .mark text => (dropMark? text s).map fun rest => (m, rest)
  | .dayName => (name? (dayNames.map (·.take 3)) s).map fun (_, rest) => (m, rest)
  | .longDayName => (name? dayNames s).map fun (_, rest) => (m, rest)
  | .monthName => (name? monthNames s).map fun (i, rest) => ({ m with month := i }, rest)
  | .day padded =>
    let found := if padded then digits? 2 s else upToTwo? s
    number found 32 fun n => { m with day := n }
  | .year => number (digits? 4 s) 10000 fun n => { m with year := n }
  | .shortYear =>
    number (digits? 2 s) 100 fun n => { m with year := if n < 69 then 2000 + n else 1900 + n }
  | .hour => number (upToTwo? s) 24 fun n => { m with hour := n }
  | .minute => number (digits? 2 s) 60 fun n => { m with minute := n }
  | .second =>
    (number (digits? 2 s) 60 fun n => { m with second := n }).map fun (m, rest) =>
      (m, dropFraction rest)
  | .zone =>
    let letters := s.takeWhile fun b => 65 ≤ b && b ≤ 90
    if 3 ≤ letters.length && letters.length ≤ 5 then some (m, s.drop letters.length) else none

/-- Reads the pieces of a layout, with which the text must end. -/
def readPieces? : List Piece → Moment → Bytes → Option Moment
  | [], m, s => if s.isEmpty then some m else none
  | p :: more, m, s =>
    match p.read? m s with
    | some (m, rest) => readPieces? more m rest
    | none => none

/-- Whether a year has a day more. -/
def isLeap (year : Nat) : Bool := year % 4 == 0 && (year % 100 != 0 || year % 400 == 0)

/-- How many days each month of a year has. -/
def monthLengths (year : Nat) : List Nat :=
  [31, if isLeap year then 29 else 28, 31, 30, 31, 30, 31, 31, 30, 31, 30, 31]

/-- The days before a year, from the first of January of year zero on. -/
def daysBefore (year : Nat) : Nat :=
  365 * year + (year + 3) / 4 - (year + 99) / 100 + (year + 399) / 400

namespace Moment

/-- Whether the day is one of its month. -/
def isDate (m : Moment) : Bool := 1 ≤ m.day && m.day ≤ ((monthLengths m.year)[m.month]?).getD 0

/-- The seconds since the beginning of 1970. -/
def seconds (m : Moment) : Int :=
  let before := ((monthLengths m.year).take m.month).foldl (· + ·) 0
  let days : Int := ((daysBefore m.year + before + m.day : Nat) : Int) - 1 - (daysBefore 1970 : Nat)
  days * 86400 + ((m.hour * 3600 + m.minute * 60 + m.second : Nat) : Int)

end Moment

/-- The moment a header gives, in seconds since the beginning of 1970. -/
def read? (s : Bytes) : Option Int :=
  match layouts.findSome? fun layout => (readPieces? layout {} s).filter Moment.isDate with
  | some m => some m.seconds
  | none => none

/-! ## Moments in digits -/

/-- A number of one digit or two below a bound, and the rest. -/
def below? (bound : Nat) (s : Bytes) : Option (Nat × Bytes) :=
  (upToTwo? s).filter fun (n, _) => n < bound

/-- What follows a byte that must stand first. -/
def after? (b : Char) : Bytes → Option Bytes
  | c :: rest => if c == byte b then some rest else none
  | [] => none

/-- What follows a date of year, month and day. -/
def dropDate? (s : Bytes) : Option Bytes := do
  let (year, s) ← digits? 4 s
  let (month, s) ← upToTwo? (← after? '-' s)
  let (day, s) ← upToTwo? (← after? '-' s)
  if 1 ≤ month ∧ Moment.isDate { year, month := month - 1, day } then some s else none

/-- What follows a time of day, which may have a fraction of a second. -/
def dropClock? (s : Bytes) : Option Bytes := do
  let (_, s) ← below? 24 s
  let (_, s) ← below? 60 (← after? ':' s)
  let (_, s) ← below? 60 (← after? ':' s)
  return dropFraction s

/-- What follows a distance from universal time, or the letter for none. -/
def dropOffset? (s : Bytes) : Option Bytes := do
  match s with
  | [] => none
  | sign :: rest =>
    if sign == byte 'Z' then some rest
    else if sign == byte '+' || sign == byte '-' then
      let (hours, rest) ← digits? 2 rest
      let (minutes, rest) ← digits? 2 (← after? ':' rest)
      if hours ≤ 24 ∧ minutes ≤ 60 then some rest else none
    else none

/-- Whether a text is a date, or a date and a time of day: after a letter with its distance from
universal time, after blanks without. -/
def isTimestamp (s : Bytes) : Bool :=
  match dropDate? s with
  | none => false
  | some [] => true
  | some (mark :: rest) =>
    if mark == byte 'T' || mark == byte 't' then (dropClock? rest).bind dropOffset? == some []
    else if mark == byte ' ' then dropClock? (rest.dropWhile (· == byte ' ')) == some []
    else false

end Calendar
end Scriptlet
