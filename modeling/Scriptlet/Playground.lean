import Scriptlet.Runner
import Scriptlet.Http.Message
import Scriptlet.Http.Timestamp
import Scriptlet.Payload.Reader
import Scriptlet.Playground.Gate

/-!
# Playground: programs run for others

A playground runs the programs that requests carry, each within the same limits and with its output
bounded, and tells how it is. Parsed programs may be kept for later requests. A request that is no
program to run is answered with what is wrong with it; a program that fails is answered with its
diagnostic beside what it had written.
-/

namespace Scriptlet

/-- How a playground is set up. -/
structure Playground where
  maxSourceBytes : Int64 := 65536
  maxOutputBytes : Nat := 1048576
  /-- The step budget of a run; zero for any number. -/
  maxSteps : Int64 := 1000000
  /-- The most calls in progress; zero for the usual number. -/
  maxCallDepth : Nat := 0
  /-- How long a run may take, in nanoseconds. -/
  timeout : Int64 := 5000000000
  /-- Whether, and why, a run is called off by the time its machine is in the given state: its time
  may be up, or nobody waits for it any more. -/
  calledOff : Machine → Option Bytes := fun _ => none
  now : Timestamp := ⟨utf8 "2024-11-01T12:00:00", 0, 0⟩
  /-- The identifier of the n-th run, if there is one left. -/
  runId : Nat → Option Bytes := fun _ => some (utf8 "GENERATED")
  /-- Stands for identifiers that requests do not bring along. -/
  generatedId : Bytes := utf8 "GENERATED"
  logRequests : Bool := true
  /-- Bounds how far a run is followed. -/
  fuel : Nat := Machine.ampleFuel

/-- What a playground keeps between requests. -/
structure Playground.State where
  store : Option (Store Loaded) := none
  gate : Gate := .wide
  /-- How many runs were given an identifier. -/
  runs : Nat := 0
  log : List LogEntry := []

/-- How a request was handled. -/
inductive Handled where
  | reply (r : Reply)
  /-- Handling broke off, for the given reason. -/
  | crash (reason : Bytes)

namespace Playground

/-! ## Limits -/

/-- A playground with limits from settings. Zero and less keep what is there, but a step budget of
zero means any number of steps. -/
def withLimits (p : Playground) (timeout maxSource maxSteps maxDepth : Int64) : Playground :=
  { p with
    timeout := if 0 < timeout then timeout else p.timeout
    maxSourceBytes := if 0 < maxSource then maxSource else p.maxSourceBytes
    maxSteps := if 0 ≤ maxSteps then maxSteps else p.maxSteps
    maxCallDepth := if 0 < maxDepth then maxDepth.toInt.toNat else p.maxCallDepth }

/-- A playground with a bound on what a run may print; zero and less keep the one that is there. -/
def withMaxOutput (p : Playground) (n : Int) : Playground :=
  if 0 < n then { p with maxOutputBytes := n.toNat } else p

/-- The budget of a run. A single nanosecond has passed before a run starts; how far a run gets in a
longer time is not computed but given. -/
def budget (p : Playground) : Budget :=
  let b := Budget.ofSettings p.maxSteps.toInt p.maxCallDepth
  if p.timeout = 1 then b.expired else { b with cancelled := p.calledOff }

/-- The most bytes of a request's body that are read: room for the source with every byte escaped
and for what comes around it, counted in 64 bits. -/
def bodyLimit (p : Playground) : Nat := (p.maxSourceBytes * 4 + 4096).toInt.toNat

/-! ## Requests to run a program -/

/-- A program to run and how. -/
structure RunRequest where
  name : Bytes := []
  code : Bytes := []
  stdin : Bytes := []
  debug : Bool := false
  dryRun : Bool := false
  time : Bool := false
deriving DecidableEq, Repr

/-- A character of a field's name with the letters of both cases and the long s taken as one. -/
def nameChar (c : Char) : Char :=
  if 'A' ≤ c && c ≤ 'Z' then Char.ofNat (c.toNat + 32)
  else if c = '\u017F' then 's'
  else if c = '\u212A' then 'k'
  else c

/-- A field's name with differences of letter case removed. -/
def foldName (s : Bytes) : Bytes := (glyphs s).flatMap fun g => encodeChar (nameChar g.char)

/-- A text field: `null` leaves it as it is, and anything but a string is refused. -/
def readText (old : Bytes) : Payload → Option Bytes
  | .null => some old
  | .string s => some s
  | _ => none

/-- A truth field: `null` leaves it as it is, and anything but a truth value is refused. -/
def readFlag (old : Bool) : Payload → Option Bool
  | .null => some old
  | .bool b => some b
  | _ => none

/-- The request with one field of a document applied; unknown fields change nothing. -/
def RunRequest.apply (r : RunRequest) (key : Bytes) (value : Payload) : Option RunRequest :=
  let name := foldName key
  if name = utf8 "name" then (readText r.name value).map fun s => { r with name := s }
  else if name = utf8 "code" then (readText r.code value).map fun s => { r with code := s }
  else if name = utf8 "stdin" then (readText r.stdin value).map fun s => { r with stdin := s }
  else if name = utf8 "debug" then (readFlag r.debug value).map fun b => { r with debug := b }
  else if name = utf8 "dryrun" then (readFlag r.dryRun value).map fun b => { r with dryRun := b }
  else if name = utf8 "time" then (readFlag r.time value).map fun b => { r with time := b }
  else some r

/-- The request a document describes: fields in order, the last of a name counting. -/
def RunRequest.ofPayload? : Payload → Option RunRequest
  | .null => some {}
  | .object fields => fields.foldlM (fun r (key, value) => r.apply key value) {}
  | _ => none

/-- Why a body is no request. -/
inductive BodyFault where
  | malformed
  | tooLarge
deriving DecidableEq, Repr

/-- Reads the request in a body of which no more than `limit` bytes are looked at. What follows the
first document does not matter. -/
def readBody (limit : Nat) (body : Bytes) : Except BodyFault RunRequest :=
  let isCut := limit < body.length
  let seen := if isCut then body.take limit else body ++ utf8 " "
  match Payload.readFirst seen with
  | .done p _ =>
    match RunRequest.ofPayload? p with
    | some r => .ok r
    | none => .error .malformed
  | .malformed => .error .malformed
  | .unfinished => .error (if isCut then .tooLarge else .malformed)

/-! ## Answers -/

/-- The answer to a request that cannot be served. -/
def refusal (status : Nat) (message details : Bytes) (suggestion : Option Bytes) : Reply :=
  let fields := [(utf8 "error", Payload.string message)] ++
    (if details.isEmpty then [] else [(utf8 "details", .string details)]) ++
    (match suggestion with
      | some s => [(utf8 "suggestion", .string s)]
      | none => [])
  .document status (.object fields)

/-- A request that is not understood. -/
def invalid (details : String) : Reply := refusal 400 (utf8 "Invalid request") (utf8 details) none

/-- A request with a program that is too large. -/
def tooLarge (details : Bytes) (suggestion : Option Bytes) : Reply :=
  refusal 413 (utf8 "Program too large") details suggestion

/-- A failure of the playground itself. -/
def internalError (details : Bytes) : Reply := refusal 500 (utf8 "Internal error") details none

/-- A diagnostic with its place in the source. -/
def diagnosticPayload (source : Bytes) (d : Diagnostic) : Payload :=
  let n := d.notice
  let place := locate source n.span.start
  .object [
    (utf8 "code", .string n.key),
    (utf8 "message", .string n.message),
    (utf8 "note", .string n.note),
    (utf8 "line", .int place.line),
    (utf8 "column", .int place.column),
    (utf8 "start", .int n.span.start),
    (utf8 "end", .int n.span.stop)]

/-- The times a run took, none of which is measured. -/
def timings : Payload :=
  .object [(utf8 "lexUs", .int 0), (utf8 "parseUs", .int 0), (utf8 "execUs", .int 0),
    (utf8 "totalUs", .int 0)]

/-- What a run is answered with: its identifier, what it wrote, its report and its diagnostic. -/
def runPayload (id out err : Bytes) (report : Report) (source : Bytes)
    (failure : Option Diagnostic) : Payload :=
  let stderr := if err.isEmpty then [] else [(utf8 "stderr", Payload.string err)]
  let failed := match failure with
    | none => []
    | some d =>
      [(utf8 "error", Payload.string d.notice.message),
        (utf8 "diagnostics", .array [diagnosticPayload source d])]
  .object (
    [(utf8 "runId", .string id), (utf8 "output", .string out)] ++ stderr ++
    [(utf8 "exitCode", .int report.exitCode.toInt), (utf8 "executed", .bool report.executed),
      (utf8 "cached", .bool report.cached)] ++ failed ++ [(utf8 "timings", timings)])

/-- What a program without a name is called. -/
def usualName : Bytes := utf8 "main.oxi"

/-- The runner that a run is given. -/
def runner (p : Playground) (runId requestId : Bytes) : Runner where
  budget := p.budget
  fuel := p.fuel
  context := [(utf8 "run_id", .text runId), (utf8 "request_id", .text requestId)]

/-- What a run starts on. -/
def surface (p : Playground) (s : State) (stdin : Bytes) : Surface where
  out := .empty (some p.maxOutputBytes)
  source := { rest := stdin }
  store := s.store
  log := s.log

/-- Runs a program under an identifier. -/
def runProgram (p : Playground) (runId requestId : Bytes) (req : RunRequest) (s : State) :
    Handled × State :=
  let name := if req.name.isEmpty then usualName else req.name
  let mode : RunMode := { debug := req.debug, dryRun := req.dryRun, time := req.time }
  let (ending, w) :=
    (p.runner runId requestId).run (some mode) name req.code (p.surface s req.stdin)
  let answer (status : Nat) (report : Report) (failure : Option Diagnostic) : Handled :=
    .reply (.document status (runPayload runId w.out.text w.err.text report req.code failure))
  let handled := match ending with
    | .finished report => answer 200 report none
    | .failed report d => answer 422 report (some d)
    | .refused why => .reply (internalError why.message)
    | .stuck _ => .crash (utf8 "stuck")
    | .unfinished _ => .reply (internalError (utf8 "unfinished"))
  (handled, { s with store := w.store, log := w.log })

/-- Serves a request to run a program. -/
def serveRun (p : Playground) (requestId body : Bytes) (s : State) : Handled × State :=
  match readBody p.bodyLimit body with
  | .error .tooLarge => (.reply (tooLarge (utf8 "request body exceeds the allowed size") none), s)
  | .error .malformed => (.reply (invalid "unable to parse JSON payload"), s)
  | .ok req =>
    if (trimBlanks req.code).isEmpty then (.reply (invalid "code must not be empty"), s)
    else if p.maxSourceBytes.toInt < req.code.length then
      let details := utf8 "code is " ++ decimal req.code.length ++ utf8 " bytes, the limit is " ++
        signedDecimal p.maxSourceBytes.toInt
      (.reply (tooLarge details (some (utf8 "Split the program or remove unused code"))), s)
    else
      match p.runId (s.runs + 1) with
      | none => (.crash (utf8 "no ids left"), s)
      | some id => p.runProgram id requestId req { s with runs := s.runs + 1 }

/-- Tells that the playground is up, and how its store is used. -/
def serveHealth (p : Playground) (s : State) : Reply :=
  let cache := match s.store with
    | none => []
    | some store =>
      let t := store.stats
      [(utf8 "cache", Payload.object [(utf8 "entries", .int t.entries),
        (utf8 "capacity", .int t.capacity), (utf8 "hits", .int (t.hits : Nat)),
        (utf8 "misses", .int (t.misses : Nat))])]
  .document 200 (.object ([(utf8 "status", .literal "ok"),
    (utf8 "timestamp", .string p.now.render)] ++ cache))

/-- Tells the release. -/
def serveVersion : Reply := .document 200 (.object [(utf8 "version", .string version)])

end Playground
end Scriptlet
