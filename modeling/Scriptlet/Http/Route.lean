import Scriptlet.Files
import Scriptlet.Http.Message

/-!
# Route: which paths lead where

Before a path is matched it is cleaned: no parts that cancel, no empty ones. A request for a path
that is not clean is sent to the clean one. Parts are compared with their escapes resolved. Requests
to connect are matched as they are.
-/

namespace Scriptlet
namespace Route

/-- The clean form of a written path, which keeps a slash at its end. -/
def cleanPath (path : Bytes) : Bytes :=
  let rooted := if path.head? == some Path.slash then path else Path.slash :: path
  let short := Path.clean rooted
  if rooted.getLast? == some Path.slash && short != [Path.slash] then short ++ [Path.slash]
  else short

/-- The path that a request is matched by. -/
def matched (r : Request) : Bytes :=
  if r.method = utf8 "CONNECT" then r.target.escaped else cleanPath r.target.escaped

/-- The parts of a path after its first slash, with their escapes resolved. -/
def parts (path : Bytes) : List Bytes := ((path.split Path.slash).tail).map RequestTarget.unescape

/-- The reply that sends a request to a path, with its query. -/
def send (r : Request) (path : Bytes) : Reply :=
  let query := r.target.query
  Reply.elsewhere r.method (if query.isEmpty then path else path ++ byte '?' :: query)

/-- Answers a request for a path that is not the one it is matched by. -/
def redirect? (r : Request) : Option Reply :=
  if matched r = r.target.escaped then none else some (send r (matched r))

end Route
end Scriptlet
