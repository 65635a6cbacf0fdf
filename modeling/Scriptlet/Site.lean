import Scriptlet.Http.Condition
import Scriptlet.Playground.Service
import Scriptlet.Settings
import Scriptlet.Site.ContentType

/-!
# Site: the playground with its page

A site serves a page at the root, files below `/static/` and the playground below `/api/`. It can
be built only where the page and the directory of files are found.
-/

namespace Scriptlet

/-- A site ready to serve. -/
structure Site where
  files : Files
  playground : Playground
  /-- Where the site listens. -/
  address : Bytes
  readHeaderTimeout : Int64
  writeTimeout : Int64
  idleTimeout : Int64
  /-- When the files were last changed, in seconds since the beginning of 1970. -/
  modified : Int := 1780000000
  /-- What stands between the parts of a file that are sent in one body. -/
  boundary : Bytes := List.replicate 60 (byte '0')

/-- Why a site cannot be built. -/
inductive SiteFault where
  | cacheCapacity
  | missing (path : Bytes)
deriving DecidableEq, Repr

/-- The fault in words. -/
def SiteFault.message : SiteFault → Bytes
  | .cacheCapacity => utf8 "failed to create program cache: " ++ Store.capacityRefusal
  | .missing path => utf8 "failed to build HTTP handler: unable to locate " ++ path

namespace Site

/-- The directory of the files below `/static/`. -/
def staticPath : Bytes := utf8 "web/static"

/-- The page at the root. -/
def pagePath : Bytes := utf8 "web/templates/index.html"

/-- The address for a port; one that already holds a colon is kept. -/
def addressOf (port : Bytes) : Bytes := if port.contains (byte ':') then port else byte ':' :: port

/-- What is logged if replies may be cut off. -/
def timeoutWarning : LogEntry :=
  ⟨.warn, utf8 "write timeout does not exceed run timeout; long runs will lose their response", []⟩

/-- Builds a site, and the state it starts in. -/
def build (files : Files) (s : Settings) : Except SiteFault (Site × Playground.State) := do
  let store ← match Store.create? s.cacheSize.toInt with
    | some store => pure store
    | none => throw .cacheCapacity
  let log := if 0 < s.writeTimeout ∧ s.writeTimeout ≤ s.runTimeout then [timeoutWarning] else []
  if !files.holds staticPath then throw (.missing staticPath)
  if !files.holds pagePath then throw (.missing pagePath)
  let limited := ({} : Playground).withLimits s.runTimeout s.maxSourceBytes s.playgroundMaxSteps
    s.playgroundMaxCallDepth
  let playground := { limited with logRequests := s.enableRequestLogging }
  let site : Site := {
    files, playground
    address := addressOf s.port
    readHeaderTimeout := s.readHeaderTimeout
    writeTimeout := s.writeTimeout
    idleTimeout := s.idleTimeout }
  let state : Playground.State := {
    store := some store
    gate := .ofRate s.rateLimitRps s.rateLimitBurst.toInt
    log }
  return (site, state)

/-! ## Files -/

/-- A reply that sends the request to a place beside its own. -/
def nearby (r : Request) (place : Bytes) : Reply :=
  let query := r.target.query
  let location := if query.isEmpty then place else place ++ byte '?' :: query
  { status := 301, headers := [(utf8 "Location", location)] }

/-- A file, or parts of it; a `HEAD` request gets everything but the body. -/
def contentReply (site : Site) (r : Request) (name contents range : Bytes) : Reply :=
  let size := contents.length
  let kind := ContentType.ofFile name contents
  let reply (status : Nat) (more : Headers) (kind body : Bytes) : Reply :=
    { status
      headers :=
        [(utf8 "Accept-Ranges", utf8 "bytes"), (utf8 "Content-Length", decimal body.length),
          (utf8 "Content-Type", kind)] ++ more
      body := if r.method = utf8 "HEAD" then [] else body }
  let whole := reply 200 [] kind contents
  match ByteRange.readAll size range with
  | .error .malformed => .plain 416 RangeFault.malformed.message
  | .error .beyond =>
    if size = 0 then whole
    else
      (Reply.plain 416 RangeFault.beyond.message).withHeader "Content-Range"
        (utf8 "bytes */" ++ decimal size)
  | .ok parts =>
    if size < (parts.map ByteRange.length).foldl (· + ·) 0 then whole
    else
      match parts with
      | [] => whole
      | [part] => reply 206 [(utf8 "Content-Range", part.place size)] kind (part.of contents)
      | _ =>
        reply 206 [] (utf8 "multipart/byteranges; boundary=" ++ site.boundary)
          (ByteRange.bundle site.boundary kind contents parts)

/-- A file as a reply, if the conditions of the request are met. -/
def fileReply (site : Site) (r : Request) (name contents : Bytes) : Reply :=
  match Condition.ofRequest site.modified r with
  | .met range => site.contentReply r name contents range
  | .unchanged => { status := 304 }
  | .failed => { status := 412 }

/-- The names in a directory, each once and in order, directories with a slash at the end. -/
def listing (files : Files) (dir : Bytes) : List Bytes :=
  let place := Path.parts dir
  let names := files.listed.filterMap fun (parts, _) =>
    if place.isPrefixOf parts then parts[place.length]? else none
  let sorted := names.eraseDups.mergeSort fun a b => (Bytes.order a b).isLE
  sorted.map fun name =>
    match files.at? (place ++ [name]) with
    | some .directory => name ++ [Path.slash]
    | _ => name

/-- A directory as a page of links. -/
def directoryReply (site : Site) (r : Request) (dir : Bytes) : Reply :=
  if Condition.isUnchanged site.modified r then { status := 304 }
  else
    { status := 200
      headers := [(utf8 "Content-Type", ContentType.markup)]
      body :=
        utf8 "<!doctype html>\n<meta name=\"viewport\" content=\"width=device-width\">\n<pre>\n" ++
        ((listing site.files dir).flatMap fun name =>
          utf8 "<a href=\"" ++ RequestTarget.reference name ++ utf8 "\">" ++
            Reply.markupEscape name ++ utf8 "</a>\n") ++
        utf8 "</pre>\n" }

/-- The index of a directory. -/
def indexName : Bytes := utf8 "/index.html"

/-- Serves a directory: its index, if there is one, and else the page of links. An index that is a
directory itself is shown that way. -/
def serveDirectory (site : Site) (r : Request) (dir : Bytes) : Reply :=
  let index := dir ++ indexName
  match site.files.find index with
  | .ok (.file contents) => site.fileReply r index contents
  | .ok .directory => site.directoryReply r index
  | .error _ => site.directoryReply r dir

/-- The reply for a path that leads nowhere. -/
def faultReply : PathFault → Reply
  | .missing | .throughFile => .notFound
  | .tooLong | .malformed => .plain 500 (utf8 "500 Internal Server Error")

/-- Serves the file or directory that a path below `/static/` names. A directory is asked for with a
slash at the end, a file without, and the index of a directory by the directory. -/
def serveStatic (site : Site) (r : Request) (path : Bytes) : Reply :=
  let rooted := if path.head? == some Path.slash then path else Path.slash :: path
  let asked := rooted.getLast? == some Path.slash
  let base := Path.base rooted
  if indexName.isSuffixOf rooted then nearby r (utf8 "./")
  else
    let place := Path.below staticPath (Path.clean rooted)
    let found := if isUtf8 place then site.files.find place else .error .malformed
    match found with
    | .error why => faultReply why
    | .ok (.file contents) =>
      if !asked then site.fileReply r place contents
      else if base = [Path.slash] || base = utf8 "." then
        .plain 500 (utf8 "http: attempting to traverse a non-directory")
      else nearby r (utf8 "../" ++ base)
    | .ok .directory =>
      if asked then site.serveDirectory r place else nearby r (base ++ [Path.slash])

/-- Serves the page at the root, which may turn out to be a directory. -/
def servePage (site : Site) (r : Request) : Reply :=
  if r.path ≠ [Path.slash] then .notFound
  else
    match site.files.find pagePath with
    | .ok (.file contents) => site.fileReply r pagePath contents
    | .ok .directory => site.serveDirectory r pagePath
    | .error why => faultReply why

/-! ## Requests -/

/-- The path below `/static/`, if the path as written names it too. -/
def belowStatic? (r : Request) : Option Bytes :=
  let mark := utf8 "/static/"
  let written := r.target.written
  let named := mark.isPrefixOf written || RequestTarget.escape r.path = written
  if mark.isPrefixOf r.path && named then some (r.path.drop mark.length)
  else none

/-- Serves a request by the first part of its path. -/
def serveBelow (site : Site) (r : Request) (s : Playground.State) : Reply × Playground.State :=
  match Route.parts (Route.matched r) with
  | [] => (.notFound, s)
  | [_] => (site.servePage r, s)
  | first :: _ :: _ =>
    if first = utf8 "api" then site.playground.serve r s
    else if first = utf8 "static" then
      match belowStatic? r with
      | some path => (site.serveStatic r path, s)
      | none => (.notFound, s)
    else (site.servePage r, s)

/-- Serves a request. Paths that lack only their last slash are sent on with it. -/
def serve (site : Site) (r : Request) (s : Playground.State) : Reply × Playground.State :=
  let path := Route.matched r
  if r.target.isServer then (.serverRefused, s)
  else if [[utf8 "static"], [utf8 "api"]].contains (Route.parts path) then
    (Route.send r (path ++ [Path.slash]), s)
  else
    match Route.redirect? r with
    | some reply => (reply, s)
    | none => site.serveBelow r s

/-- Serves requests one after the other. -/
def serveAll (site : Site) : List Request → Playground.State → List Reply × Playground.State
  | [], s => ([], s)
  | r :: rest, s =>
    let (reply, s) := site.serve r s
    let (replies, s) := site.serveAll rest s
    (reply :: replies, s)

end Site
end Scriptlet
