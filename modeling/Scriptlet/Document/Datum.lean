import Scriptlet.Calendar
import Scriptlet.Number.Binary64
import Scriptlet.Text.Base64

/-!
# Datum: what a scalar stands for

Plain text that reads as a number, a truth value or nothing is that; all else is text. A tag can
make a scalar text, or insist on what it is; tags that nothing is known about make it text.
-/

namespace Scriptlet

/-- What a scalar stands for. -/
inductive Datum where
  | nothing
  | truth (b : Bool)
  | integer (n : Int)
  | number (x : Binary64)
  | text (s : Bytes)
deriving Repr

namespace Datum

/-! ## Numbers -/

/-- Whether a text is a decimal number: digits with an optional point and exponent. -/
def isDecimal (s : Bytes) : Bool :=
  let (_, body) := splitSign s
  let isDigit (b : UInt8) : Bool := 48 ≤ b && b ≤ 57
  let whole := body.takeWhile isDigit
  let rest := body.drop whole.length
  let (fraction, rest) := match rest with
    | 46 :: more => (some (more.takeWhile isDigit), more.dropWhile isDigit)
    | _ => (none, rest)
  let mantissa := match fraction with
    | none => !whole.isEmpty
    | some ds => !whole.isEmpty || !ds.isEmpty
  let exponent := match rest with
    | [] => true
    | b :: more =>
      let (_, digits) := splitSign more
      Bytes.lowerByte b == byte 'e' && !digits.isEmpty && digits.all isDigit
  mantissa && exponent

/-- An unsigned number of the given base. -/
def unsigned? (base : Nat) (s : Bytes) : Option Int :=
  if s.isEmpty then none else (readDigits base false 0 s).toOption.map fun n => (n : Int)

/-- A number of the given base, which fits 64 bits with its sign or without one. -/
def based? (base : Nat) (s : Bytes) : Option Int :=
  let (negative, digits) := splitSign s
  match unsigned? base digits with
  | none => none
  | some n =>
    match signed64 negative n.toNat with
    | .ok i => some i.toInt
    | .error _ => if digits.length = s.length then some n else none

/-- An integer whose mark tells its base; without a sign it may take all of 64 bits. -/
def literal? (s : Bytes) : Option Int :=
  match readLiteral64 s with
  | .ok n => some n.toInt
  | .error _ =>
    let (base, digits) := splitBase s
    if digits.isEmpty then none else unsigned? base digits

/-- An integer with a sign between the mark of its base and its digits. -/
def marked? (s : Bytes) : Option Int :=
  let base? (mark : UInt8) : Option Nat :=
    if mark == byte 'b' then some 2 else if mark == byte 'o' then some 8 else none
  match s with
  | 48 :: mark :: rest => (base? mark).bind fun base => based? base rest
  | 45 :: 48 :: mark :: rest => (base? mark).bind fun base => based? base (45 :: rest)
  | _ => none

/-- Plain text that starts with a sign or a digit. -/
def ofNumeral (s : Bytes) : Datum :=
  let bare := s.filter (· != byte '_')
  let decimal? := if isDecimal bare then (Binary64.read bare).toOption else none
  match literal? bare, decimal?, marked? bare with
  | some n, _, _ => .integer n
  | none, some x, _ => .number x
  | none, none, some n => .integer n
  | none, none, none => .text s

/-! ## Plain text -/

/-- The plain scalars that are words for something. -/
def words : List (Bytes × Datum) :=
  [(utf8 "", .nothing), (utf8 "~", .nothing), (utf8 "null", .nothing), (utf8 "Null", .nothing),
    (utf8 "NULL", .nothing),
    (utf8 "true", .truth true), (utf8 "True", .truth true), (utf8 "TRUE", .truth true),
    (utf8 "false", .truth false), (utf8 "False", .truth false), (utf8 "FALSE", .truth false),
    (utf8 ".nan", .number .nan), (utf8 ".NaN", .number .nan), (utf8 ".NAN", .number .nan),
    (utf8 ".inf", .number (.infinite false)), (utf8 ".Inf", .number (.infinite false)),
    (utf8 ".INF", .number (.infinite false)), (utf8 "+.inf", .number (.infinite false)),
    (utf8 "+.Inf", .number (.infinite false)), (utf8 "+.INF", .number (.infinite false)),
    (utf8 "-.inf", .number (.infinite true)), (utf8 "-.Inf", .number (.infinite true)),
    (utf8 "-.INF", .number (.infinite true))]

/-- What plain text stands for. -/
def ofPlain (s : Bytes) : Datum :=
  match words.lookup s with
  | some d => d
  | none =>
    match s with
    | [] => .nothing
    | b :: _ =>
      if b == byte '.' then
        match Binary64.read s with
        | .ok x => .number x
        | .error _ => .text s
      else if b == byte '+' || b == byte '-' || (48 ≤ b && b ≤ 57) then ofNumeral s
      else .text s

/-! ## Tags -/

/-- What the tags of the format start with when they are written in full. -/
def standardStem : Bytes := utf8 "tag:yaml.org,2002:"

/-- A tag in its short form. -/
def shortTag (tag : Bytes) : Bytes :=
  if standardStem.isPrefixOf tag then utf8 "!!" ++ tag.drop standardStem.length else tag

/-- The text of a scalar with a tag, if it is what the tag says. -/
def ofTagged (tag text : Bytes) : Option Datum :=
  let kind := shortTag tag
  if kind == utf8 "!!null" then
    match ofPlain text with
    | .nothing => some .nothing
    | _ => none
  else if kind == utf8 "!!bool" then
    match ofPlain text with
    | .truth b => some (.truth b)
    | _ => none
  else if kind == utf8 "!!int" then
    match ofPlain text with
    | .integer n => some (.integer n)
    | _ => none
  else if kind == utf8 "!!float" then
    match ofPlain text with
    | .number x => some (.number x)
    | .integer n => if n < signedBound then some (.number (.ofInt n)) else none
    | _ => none
  else if kind == utf8 "!!timestamp" then
    if Calendar.isTimestamp text then some (.text text) else none
  else if kind == utf8 "!!binary" then (Base64.decode? text).map .text
  else some (.text text)

/-- What a scalar stands for; none if its tag says otherwise. -/
def ofScalar (tag : Option Bytes) (isPlain : Bool) (text : Bytes) : Option Datum :=
  match tag with
  | some t => ofTagged t text
  | none => some (if isPlain then ofPlain text else .text text)

/-- The text of a scalar: as it is written, unless what it stands for is text itself. -/
def textOr (d : Datum) (written : Bytes) : Bytes :=
  match d with
  | .text s => s
  | _ => written

end Datum
end Scriptlet
