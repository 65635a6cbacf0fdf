import Scriptlet.Text.Bytes

/-!
# RequestTarget: what a request asks for

A target is a path and perhaps a query, and may be written with the scheme and the address of the
server in front. A path is written with percent escapes; it is matched as it is written and read
with its escapes resolved. A star stands for the server as a whole.
-/

namespace Scriptlet

/-- What a request asks for. -/
structure RequestTarget where
  /-- The path as it is written. -/
  written : Bytes
  /-- The path with its escapes resolved. -/
  path : Bytes
  /-- What follows the question mark. -/
  query : Bytes := []
  /-- Whether the server as a whole is meant. -/
  isServer : Bool := false
deriving DecidableEq, Repr

namespace RequestTarget

/-! ## Escapes -/

/-- The value of two hexadecimal digits. -/
def hexPair? (a b : UInt8) : Option UInt8 :=
  let value (c : UInt8) : Option Nat :=
    let d := Bytes.lowerByte c
    if 48 ≤ d && d ≤ 57 then some (d.toNat - 48)
    else if 97 ≤ d && d ≤ 102 then some (d.toNat - 87)
    else none
  match value a, value b with
  | some x, some y => some (x * 16 + y).toUInt8
  | _, _ => none

/-- The text with its percent escapes resolved; none if one is malformed. -/
def unescape? : Bytes → Option Bytes
  | [] => some []
  | 37 :: a :: b :: rest =>
    match hexPair? a b with
    | some c => (unescape? rest).map (c :: ·)
    | none => none
  | b :: rest => if b == 37 then none else (unescape? rest).map (b :: ·)

/-- The text with its percent escapes resolved, or as it is if one is malformed. -/
def unescape (s : Bytes) : Bytes := (unescape? s).getD s

/-- A letter or a digit. -/
def isWordByte (b : UInt8) : Bool :=
  (97 ≤ b && b ≤ 122) || (65 ≤ b && b ≤ 90) || (48 ≤ b && b ≤ 57)

/-- Whether a byte stands for itself in a path. -/
def isPathByte (b : UInt8) : Bool := isWordByte b || (utf8 "-_.~$&+,/:;=@").contains b

/-- Whether a byte may be written in a path without being changed. -/
def isWrittenByte (b : UInt8) : Bool := isPathByte b || (utf8 "!'()*[]%").contains b

/-- A percent escape. -/
def percent (b : UInt8) : Bytes :=
  let digit (n : Nat) : UInt8 := if n < 10 then (48 + n).toUInt8 else (55 + n).toUInt8
  [37, digit (b.toNat / 16), digit (b.toNat % 16)]

/-- A path with all other bytes escaped. -/
def escape (s : Bytes) : Bytes := s.flatMap fun b => if isPathByte b then [b] else percent b

/-- A path as a reference relative to where it stands: a colon in its first part must not be taken
for the end of a scheme. -/
def reference (path : Bytes) : Bytes :=
  let escaped := if path = utf8 "*" then path else escape path
  if (escaped.takeWhile (· != byte '/')).contains (byte ':') then utf8 "./" ++ escaped else escaped

/-- The path that is matched: as it is written, if that needs no further escapes. -/
def escaped (t : RequestTarget) : Bytes :=
  if t.written.all isWrittenByte then t.written else escape t.path

/-! ## Reading -/

/-- A byte that may stand in a scheme, though not at its start. -/
def isSchemeByte (b : UInt8) : Bool := isWordByte b || (utf8 "+-.").contains b

/-- Whether a text begins with a scheme, and what follows its colon; the text itself if it does not.
A scheme must have a name. -/
def splitScheme? (s : Bytes) : Option (Bool × Bytes) :=
  let front := s.takeWhile isSchemeByte
  match s.drop front.length with
  | 58 :: rest =>
    match front with
    | [] => none
    | b :: _ => some (if 65 ≤ b then (true, rest) else (false, s))
  | _ => some (false, s)

/-- A byte that may stand in the address of a server. -/
def isHostByte (b : UInt8) : Bool :=
  128 ≤ b || isWordByte b || (utf8 "-_.~!$&'()*+,;=:[]<>\"%").contains b

/-- Whether a text is the address of a server: a name or a bracketed number, and perhaps a port in
digits. -/
def isAuthority (s : Bytes) : Bool :=
  let host := (s.reverse.takeWhile (· != byte '@')).reverse
  let isPort (p : Bytes) : Bool :=
    match p with
    | [] => true
    | b :: digits => b == byte ':' && digits.all fun d => 48 ≤ d && d ≤ 57
  let port :=
    if host.head? == some (byte '[') then (host.reverse.takeWhile (· != byte ']')).reverse
    else host.dropWhile (· != byte ':')
  host.all isHostByte && isPort port

/-- The target with the given path and query; none if an escape in the path is malformed. -/
def ofPath? (path query : Bytes) : Option RequestTarget :=
  (unescape? path).map fun resolved => { written := path, path := resolved, query }

/-- Reads a target with the scheme and the address in front, or without. -/
def ofText? (s : Bytes) : Option RequestTarget := do
  let (absolute, rest) ← splitScheme? s
  let (place, query) := Bytes.cut (byte '?') rest
  let query := query.getD []
  match place with
  | 47 :: 47 :: more =>
    if absolute then
      let authority := more.takeWhile (· != byte '/')
      if isAuthority authority then ofPath? (more.drop authority.length) query else none
    else ofPath? place query
  | 47 :: _ => ofPath? place query
  | _ => if absolute then some { written := [], path := [], query } else none

/-- Reads the target of a request. A request to connect names a server, unless it names a path. -/
def read? (method s : Bytes) : Option RequestTarget :=
  if s.isEmpty || s.any (fun b => b ≤ 32 || b == 127) then none
  else if method = utf8 "CONNECT" && s.head? != some (byte '/') then
    (ofText? (utf8 "http://" ++ s)).map fun t => { t with isServer := s = utf8 "*" }
  else if s = utf8 "*" then some { written := s, path := s, isServer := true }
  else ofText? s

end RequestTarget
end Scriptlet
