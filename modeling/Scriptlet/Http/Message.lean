import Scriptlet.Http.RequestTarget
import Scriptlet.Payload
import Scriptlet.Text.Blank

/-!
# Message: requests and replies

A request has a method, a target, headers and a body. A reply has a status, headers and a body.
Header names have one spelling each in replies and are found in any letter case in requests.
-/

namespace Scriptlet

/-- Headers with their values. -/
abbrev Headers := List (Bytes × Bytes)

/-- The value of a header, its name in any letter case; empty if there is none. -/
def Headers.get (hs : Headers) (name : Bytes) : Bytes :=
  match hs.find? (fun h => Bytes.lower h.1 = Bytes.lower name) with
  | some h => h.2
  | none => []

/-- Sets a header, replacing an earlier value. -/
def Headers.set (hs : Headers) (name value : Bytes) : Headers :=
  hs.filter (·.1 != name) ++ [(name, value)]

/-- A request as it arrives. -/
structure Request where
  method : Bytes := utf8 "GET"
  target : RequestTarget := { written := utf8 "/", path := utf8 "/" }
  headers : Headers := []
  body : Bytes := []
  /-- The address of the client, usually with a port. -/
  remote : Bytes := utf8 "192.0.2.1:1234"
deriving Repr

/-- A reply. -/
structure Reply where
  status : Nat
  headers : Headers := []
  body : Bytes := []
deriving DecidableEq, Repr

namespace Request

/-- The path with its escapes resolved. -/
def path (r : Request) : Bytes := r.target.path

/-- Whether a text can name a method. -/
def isMethod (s : Bytes) : Bool :=
  !s.isEmpty && s.all fun b => RequestTarget.isWordByte b || (utf8 "!#$%&'*+-.^_`|~").contains b

end Request

namespace Reply

/-- The reply with a header set. -/
def withHeader (r : Reply) (name : String) (value : Bytes) : Reply :=
  { r with headers := r.headers.set (utf8 name) value }

/-- The reply with all headers of a list set. -/
def withHeaders (r : Reply) (hs : Headers) : Reply :=
  { r with headers := hs.foldl (fun acc h => acc.set h.1 h.2) r.headers }

/-- A document, followed by a newline. -/
def document (status : Nat) (p : Payload) : Reply :=
  { status
    headers := [(utf8 "Content-Type", utf8 "application/json")]
    body := p.render ++ utf8 "\n" }

/-- A plain message, followed by a newline, that browsers must not take for anything else. -/
def plain (status : Nat) (text : Bytes) : Reply where
  status := status
  headers :=
    [(utf8 "Content-Type", utf8 "text/plain; charset=utf-8"),
      (utf8 "X-Content-Type-Options", utf8 "nosniff")]
  body := text ++ utf8 "\n"

/-- There is nothing at the path. -/
def notFound : Reply := plain 404 (utf8 "404 page not found")

/-- The path does not take the method. -/
def methodNotAllowed (allowed : List Bytes) : Reply :=
  (plain 405 (utf8 "Method Not Allowed")).withHeader "Allow"
    ((utf8 ", ").intercalate allowed)

/-- Text as it can stand in markup. -/
def markupEscape (s : Bytes) : Bytes :=
  s.flatMap fun b =>
    if b == byte '&' then utf8 "&amp;"
    else if b == byte '<' then utf8 "&lt;"
    else if b == byte '>' then utf8 "&gt;"
    else if b == byte '"' then utf8 "&#34;"
    else if b == byte '\'' then utf8 "&#39;"
    else [b]

/-- Text as it can stand in a header: bytes beyond ASCII are escaped. -/
def headerEscape (s : Bytes) : Bytes :=
  s.flatMap fun b => if b < 128 then [b] else byte '%' :: Bytes.hex 2 b.toNat

/-- The request belongs elsewhere for now. Only a `GET` is told so in a body. -/
def elsewhere (method location : Bytes) : Reply :=
  let html := (utf8 "Content-Type", utf8 "text/html; charset=utf-8")
  let shows := method = utf8 "GET"
  let place := [(utf8 "Location", headerEscape location)]
  { status := 307
    headers := if shows ∨ method = utf8 "HEAD" then place ++ [html] else place
    body :=
      if shows then
        utf8 "<a href=\"" ++ markupEscape location ++ utf8 "\">Temporary Redirect</a>.\n\n"
      else [] }

/-- The server as a whole has nothing to say, and the connection ends. -/
def serverRefused : Reply := { status := 400, headers := [(utf8 "Connection", utf8 "close")] }

end Reply
end Scriptlet
