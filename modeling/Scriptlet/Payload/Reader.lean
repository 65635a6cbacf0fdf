import Scriptlet.Payload

/-!
# Reader: the first JSON document of a text

Reading goes from left to right and stops at the end of the first document, at the first byte that
cannot belong to one, or at the end of the text. The last two are told apart, because a text that
was cut short may be unfinished where the whole of it is not.
-/

namespace Scriptlet

/-- How reading ended. -/
inductive Reading (α : Type) where
  | done (a : α) (rest : Bytes)
  /-- No continuation of the text is a document. -/
  | malformed
  /-- The text ended too early. -/
  | unfinished
deriving Repr

namespace Reading

/-- Goes on reading where a first part ended. -/
def andThen {α β : Type} (r : Reading α) (f : α → Bytes → Reading β) : Reading β :=
  match r with
  | .done a rest => f a rest
  | .malformed => .malformed
  | .unfinished => .unfinished

end Reading

namespace Payload

/-- How deep documents may be nested. -/
def maxDepth : Nat := 10000

/-- The blanks between the parts of a document. -/
def isSpace (b : UInt8) : Bool := b == 32 || b == 9 || b == 10 || b == 13

/-- The text after its blanks. -/
def skipSpace (s : Bytes) : Bytes := s.dropWhile isSpace

/-- A decimal digit. -/
def isDigitByte (b : UInt8) : Bool := 48 ≤ b && b ≤ 57

/-! ## Strings -/

/-- The value of a hexadecimal digit. -/
def hexDigit? (b : UInt8) : Option Nat :=
  let c := Bytes.lowerByte b
  if isDigitByte c then some (c.toNat - 48)
  else if 97 ≤ c && c ≤ 102 then some (c.toNat - 87)
  else none

/-- Reads `n` hexadecimal digits. -/
def readHex : Nat → Nat → Bytes → Reading Nat
  | 0, value, s => .done value s
  | _ + 1, _, [] => .unfinished
  | n + 1, value, b :: rest =>
    match hexDigit? b with
    | some d => readHex n (value * 16 + d) rest
    | none => .malformed

/-- The escapes of one letter and what they stand for. -/
def letterEscapes : List (UInt8 × UInt8) :=
  [(byte '"', byte '"'), (byte '\\', byte '\\'), (byte '/', byte '/'), (byte 'b', 8),
    (byte 'f', 12), (byte 'n', 10), (byte 'r', 13), (byte 't', 9)]

/-- What the code unit `low` written after `high` makes of the pair: one character beyond the basic
plane, if the two belong together. -/
def pairedChar? (high low : Nat) : Option Char :=
  if 0xD800 ≤ high ∧ high < 0xDC00 ∧ 0xDC00 ≤ low ∧ low < 0xE000 then
    some (Char.ofNat (0x10000 + (high - 0xD800) * 0x400 + (low - 0xDC00)))
  else none

/-- The code unit that an escape at the start of a text writes, if there is one. -/
def codeUnit? : Bytes → Option (Nat × Bytes)
  | 92 :: 117 :: rest =>
    match readHex 4 0 rest with
    | .done n after => some (n, after)
    | _ => none
  | _ => none

/-- The bytes of a code unit, and the text after it: half of a pair takes its other half along, and
stands for U+FFFD without it. -/
def unitBytes (n : Nat) (rest : Bytes) : Bytes × Bytes :=
  if 0xD800 ≤ n ∧ n < 0xE000 then
    match codeUnit? rest with
    | some (m, after) =>
      match pairedChar? n m with
      | some c => (encodeChar c, after)
      | none => (encodeChar replacement, rest)
    | none => (encodeChar replacement, rest)
  else (encodeChar (Char.ofNat n), rest)

/-- Reads the rest of a string after its opening quote; malformed bytes read as U+FFFD. -/
def readString : Nat → Bytes → Bytes → Reading Bytes
  | 0, _, _ => .unfinished
  | _, _, [] => .unfinished
  | bound + 1, out, b :: rest =>
    if b == byte '"' then .done (repair out.reverse) rest
    else if b < 0x20 then .malformed
    else if b != byte '\\' then readString bound (b :: out) rest
    else
      match rest with
      | [] => .unfinished
      | c :: after =>
        match letterEscapes.lookup c with
        | some d => readString bound (d :: out) after
        | none =>
          if c == byte 'u' then
            (readHex 4 0 after).andThen fun n after =>
              let (bytes, after) := unitBytes n after
              readString bound (bytes.reverse ++ out) after
          else .malformed

/-! ## Numbers and words -/

/-- Reads a word letter by letter. -/
def readWord {α : Type} (a : α) : Bytes → Bytes → Reading α
  | [], s => .done a s
  | _ :: _, [] => .unfinished
  | w :: word, b :: rest => if w == b then readWord a word rest else .malformed

/-- Reads at least one digit, and requires something after the last. -/
def readDigitRun (s : Bytes) : Reading Unit :=
  match s with
  | [] => .unfinished
  | b :: _ =>
    if isDigitByte b then
      match s.dropWhile isDigitByte with
      | [] => .unfinished
      | rest => .done () rest
    else .malformed

/-- Reads the fraction of a number, if there is one. -/
def readFraction (s : Bytes) : Reading Unit :=
  match s with
  | [] => .unfinished
  | b :: rest => if b == byte '.' then readDigitRun rest else .done () s

/-- Reads the exponent of a number, if there is one. -/
def readPower (s : Bytes) : Reading Unit :=
  match s with
  | [] => .unfinished
  | b :: rest =>
    if Bytes.lowerByte b == byte 'e' then
      match rest with
      | [] => .unfinished
      | c :: after => readDigitRun (if c == byte '+' || c == byte '-' then after else rest)
    else .done () s

/-- Reads the whole part of a number, in which nothing follows a leading zero. -/
def readWhole (s : Bytes) : Reading Unit :=
  match s with
  | [] => .unfinished
  | b :: rest => if b == byte '0' then .done () rest else readDigitRun s

/-- Reads a number. Its end is known only from what follows. -/
def readNumber (s : Bytes) : Reading Bytes :=
  let body := if s.head? == some (byte '-') then s.tail else s
  (readWhole body).andThen fun _ s₁ =>
    (readFraction s₁).andThen fun _ s₂ =>
      (readPower s₂).andThen fun _ s₃ => .done (s.take (s.length - s₃.length)) s₃

/-! ## Documents -/

mutual

/-- Reads a document at a depth of nesting. -/
def readValue : Nat → Nat → Bytes → Reading Payload
  | 0, _, _ => .unfinished
  | bound + 1, depth, s =>
    match skipSpace s with
    | [] => .unfinished
    | b :: rest =>
      if b == byte '"' then
        (readString (rest.length + 1) [] rest).andThen fun t after => .done (.string t) after
      else if b == byte '\x7b' then
        if maxDepth ≤ depth then .malformed else readFirstField bound (depth + 1) rest
      else if b == byte '[' then
        if maxDepth ≤ depth then .malformed else readFirstItem bound (depth + 1) rest
      else if b == byte 't' then readWord (.bool true) (utf8 "rue") rest
      else if b == byte 'f' then readWord (.bool false) (utf8 "alse") rest
      else if b == byte 'n' then readWord .null (utf8 "ull") rest
      else if b == byte '-' || isDigitByte b then
        (readNumber (b :: rest)).andThen fun t after => .done (.number t) after
      else .malformed

/-- Reads what follows an opening bracket. -/
def readFirstItem : Nat → Nat → Bytes → Reading Payload
  | 0, _, _ => .unfinished
  | bound + 1, depth, s =>
    match skipSpace s with
    | [] => .unfinished
    | b :: rest =>
      if b == byte ']' then .done (.array []) rest else readItems bound depth [] (b :: rest)

/-- Reads the items of an array from the next one on. -/
def readItems : Nat → Nat → List Payload → Bytes → Reading Payload
  | 0, _, _, _ => .unfinished
  | bound + 1, depth, found, s =>
    (readValue bound depth s).andThen fun item after =>
      match skipSpace after with
      | [] => .unfinished
      | b :: rest =>
        if b == byte ',' then readItems bound depth (item :: found) rest
        else if b == byte ']' then .done (.array (item :: found).reverse) rest
        else .malformed

/-- Reads what follows an opening brace. -/
def readFirstField : Nat → Nat → Bytes → Reading Payload
  | 0, _, _ => .unfinished
  | bound + 1, depth, s =>
    match skipSpace s with
    | [] => .unfinished
    | b :: rest =>
      if b == byte '\x7d' then .done (.object []) rest
      else readFields bound depth [] (b :: rest)

/-- Reads the fields of an object from the next one on. -/
def readFields : Nat → Nat → List (Bytes × Payload) → Bytes → Reading Payload
  | 0, _, _, _ => .unfinished
  | bound + 1, depth, found, s =>
    match skipSpace s with
    | [] => .unfinished
    | b :: rest =>
      if b == byte '"' then
        (readString (rest.length + 1) [] rest).andThen fun key after =>
          match skipSpace after with
          | [] => .unfinished
          | c :: after =>
            if c == byte ':' then
              (readValue bound depth after).andThen fun value after =>
                match skipSpace after with
                | [] => .unfinished
                | d :: after =>
                  if d == byte ',' then readFields bound depth ((key, value) :: found) after
                  else if d == byte '\x7d' then
                    .done (.object ((key, value) :: found).reverse) after
                  else .malformed
            else .malformed
      else .malformed

end

/-- Whether a document shows its own end. -/
def closesItself : Payload → Bool
  | .array _ | .object _ => true
  | _ => false

/-- Reads the first document of a text; one that does not show its own end needs a byte after it. -/
def readFirst (s : Bytes) : Reading Payload :=
  match readValue (4 * s.length + 4) 0 s with
  | .done p rest => if p.closesItself || !rest.isEmpty then .done p rest else .unfinished
  | r => r

end Payload
end Scriptlet
