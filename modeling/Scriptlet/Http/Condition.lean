import Scriptlet.Calendar
import Scriptlet.Http.Message
import Scriptlet.Http.Range

/-!
# Condition: requests that depend on what the client has

A request can ask for a file only if it has changed since a moment, or only if it has not, or only
if the client does not have it under some mark. Files here have a moment of their last change and no
marks. Moments that cannot be read are taken as not given.
-/

namespace Scriptlet

/-- What the conditions of a request come to. -/
inductive Condition where
  /-- The request is met, as far as it asks for parts. -/
  | met (range : Bytes)
  /-- The client has the file already. -/
  | unchanged
  /-- The request must not be met. -/
  | failed
deriving DecidableEq, Repr

namespace Condition

/-- A mark in quotes, perhaps a weak one, at the start of a text, and the rest. -/
def tag? (s : Bytes) : Option (Bytes × Bytes) :=
  let weak := utf8 "W/"
  let start := if weak.isPrefixOf s then weak.length else 0
  match s.drop start with
  | 34 :: body =>
    let inner := body.takeWhile fun b => b == 0x21 || (0x23 ≤ b && b != 127)
    match body.drop inner.length with
    | 34 :: rest => some (s.take (start + inner.length + 2), rest)
    | _ => none
  | _ => none

/-- Whether a list of marks names a file without marks: only a star does. The list is read up to
what is no mark; each step takes one of `bound`. -/
def namesAny : Nat → Bytes → Bool
  | 0, _ => false
  | bound + 1, s =>
    match ByteRange.trim s with
    | [] => false
    | b :: rest =>
      if b == byte ',' then namesAny bound rest
      else if b == byte '*' then true
      else
        match tag? (b :: rest) with
        | some (_, rest) => namesAny bound rest
        | none => false

/-- Whether a request only looks. -/
def looks (r : Request) : Bool := r.method = utf8 "GET" || r.method = utf8 "HEAD"

/-- The moment a header gives. -/
def moment? (r : Request) (name : String) : Option Int := Calendar.read? (r.headers.get (utf8 name))

/-- Whether a request that only looks asks for what is newer than the file. -/
def isUnchanged (modified : Int) (r : Request) : Bool :=
  looks r &&
    match moment? r "If-Modified-Since" with
    | some t => modified ≤ t
    | none => false

/-- Whether a request must be met only for another state of the file. -/
def isStale (modified : Int) (r : Request) : Bool :=
  let marks := r.headers.get (utf8 "If-Match")
  if !marks.isEmpty then !namesAny (marks.length + 1) marks
  else
    match moment? r "If-Unmodified-Since" with
    | some t => t < modified
    | none => false

/-- Whether parts may be asked for: not if they belong to another state of the file. -/
def takesParts (modified : Int) (r : Request) : Bool :=
  let state := r.headers.get (utf8 "If-Range")
  if !looks r || state.isEmpty then true
  else
    match tag? (ByteRange.trim state) with
    | some _ => false
    | none => Calendar.read? state == some modified

/-- What the conditions of a request for a file come to. -/
def ofRequest (modified : Int) (r : Request) : Condition :=
  let marks := r.headers.get (utf8 "If-None-Match")
  if isStale modified r then .failed
  else if !marks.isEmpty && namesAny (marks.length + 1) marks then
    if looks r then .unchanged else .failed
  else if marks.isEmpty && isUnchanged modified r then .unchanged
  else .met (if takesParts modified r then r.headers.get (utf8 "Range") else [])

end Condition
end Scriptlet
