import Scriptlet.Http.Route
import Scriptlet.Playground

/-!
# Service: from requests to replies

Every request gets an identifier, then passes the gate. What is let in is logged when it is done;
handling that broke off is answered all the same; every reply allows use from other sites; and only
then does the path decide. A request that the gate stops is answered at once and leaves no trace in
the log.
-/

namespace Scriptlet
namespace Playground

/-- The identifier of a request: the one it brings along, or a generated one. -/
def requestId (p : Playground) (r : Request) : Bytes :=
  let given := trimBlanks (r.headers.get (utf8 "X-Request-ID"))
  if given.isEmpty then p.generatedId else given

/-- The headers that allow use from other sites. -/
def crossSite : Headers :=
  [(utf8 "Access-Control-Allow-Origin", utf8 "*"),
    (utf8 "Access-Control-Allow-Methods", utf8 "GET,POST,OPTIONS"),
    (utf8 "Access-Control-Allow-Headers",
      utf8 "Content-Type,Authorization,X-Requested-With,X-Request-ID"),
    (utf8 "Access-Control-Expose-Headers", utf8 "X-Request-ID"),
    (utf8 "Access-Control-Max-Age", utf8 "86400")]

/-- What the playground offers. -/
inductive Service where
  | health | version | run
deriving DecidableEq, Repr

namespace Service

/-- All services. -/
def all : List Service := [.health, .version, .run]

/-- The parts of a service's path. -/
def parts : Service → List Bytes
  | .health => [utf8 "api", utf8 "health"]
  | .version => [utf8 "api", utf8 "version"]
  | .run => [utf8 "api", utf8 "run"]

/-- The methods a service takes. -/
def methods : Service → List Bytes
  | .health | .version => [utf8 "GET", utf8 "HEAD"]
  | .run => [utf8 "POST"]

/-- The service at a written path. -/
def at? (path : Bytes) : Option Service := all.find? (·.parts = Route.parts path)

end Service

/-- Lets the path and the method decide. -/
def dispatch (p : Playground) (id : Bytes) (r : Request) (s : State) : Handled × State :=
  if r.target.isServer then (.reply .serverRefused, s)
  else
    match Route.redirect? r, Service.at? (Route.matched r) with
    | some reply, _ => (.reply reply, s)
    | none, none => (.reply .notFound, s)
    | none, some service =>
      if !service.methods.contains r.method then
        (.reply (.methodNotAllowed service.methods), s)
      else
        match service with
        | .health => (.reply (p.serveHealth s), s)
        | .version => (.reply serveVersion, s)
        | .run => p.serveRun id r.body s

/-- Answers requests from other sites that only ask what is allowed. -/
def share (p : Playground) (id : Bytes) (r : Request) (s : State) : Handled × State :=
  if r.method = utf8 "OPTIONS" then (.reply { status := 204 }, s) else p.dispatch id r s

/-- Answers handling that broke off, and records why it did. -/
def recover (p : Playground) (id : Bytes) (r : Request) (s : State) : Reply × State :=
  match p.share id r s with
  | (.reply reply, s) => (reply, s)
  | (.crash reason, s) =>
    let entry : LogEntry := ⟨.error, utf8 "panic recovered",
      [(utf8 "error", .text reason), (utf8 "request_id", .text id)]⟩
    (internalError (utf8 "unexpected server error"), { s with log := s.log ++ [entry] })

/-- Serves a request that was let in, and records it. -/
def serveAdmitted (p : Playground) (id : Bytes) (r : Request) (s : State) : Reply × State :=
  let (reply, s) := p.recover id r s
  let reply := reply.withHeaders crossSite
  let entry : LogEntry := ⟨.info, utf8 "request completed",
    [(utf8 "method", .text r.method), (utf8 "path", .text r.path),
      (utf8 "status", .number reply.status),
      (utf8 "request_id", .text id)]⟩
  (reply, if p.logRequests then { s with log := s.log ++ [entry] } else s)

/-- The answer to a client that asks too often. -/
def tooMany : Reply :=
  refusal 429 (utf8 "Too many requests") (utf8 "rate limit exceeded, please retry shortly") none

/-- Serves a request. -/
def serve (p : Playground) (r : Request) (s : State) : Reply × State :=
  let id := p.requestId r
  let (admitted, gate) := s.gate.letIn (Gate.clientKey r.remote)
  let s := { s with gate }
  let (reply, s) := if admitted then p.serveAdmitted id r s else (tooMany, s)
  (reply.withHeader "X-Request-Id" id, s)

/-- Serves requests one after the other. -/
def serveAll (p : Playground) : List Request → State → List Reply × State
  | [], s => ([], s)
  | r :: rest, s =>
    let (reply, s) := p.serve r s
    let (replies, s) := p.serveAll rest s
    (reply :: replies, s)

end Playground
end Scriptlet
