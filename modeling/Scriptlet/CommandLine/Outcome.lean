import Scriptlet.CommandLine.Invocation
import Scriptlet.Script
import Scriptlet.Site

/-!
# Outcome: a command line carried out

Carrying out a command line writes to two streams and ends with a code. A program's own exit code is
passed on as it is; a line that makes no sense ends with two, and everything else that goes wrong
with one.
-/

namespace Scriptlet

/-- What a command line led to. -/
structure Outcome where
  code : Int
  out : Bytes := []
  err : Bytes := []
deriving DecidableEq, Repr

namespace Outcome

/-- The name of the program. -/
def programName : Bytes := utf8 "oxido"

/-- The end of a line that makes no sense. -/
def misread (why : LineFault) : Outcome :=
  { code := 2, err := programName ++ utf8 ": error: " ++ why.message ++ utf8 ", try --help\n" }

/-- The end of a command that cannot be carried out. -/
def refused (why : Bytes) : Outcome := { code := 1, err := utf8 "error: " ++ why ++ utf8 "\n" }

/-- The end of a command without usable settings. -/
def unset (why : SettingsFault) : Outcome :=
  refused (utf8 "failed to load configuration: " ++ why.message)

/-- The release, on a line of its own. -/
def versionLine : Bytes := version ++ utf8 "\n"

end Outcome

namespace Invocation

/-- The runner that settings ask for. -/
def runner (s : Settings) : Runner where
  paint := .forTerminal s.color
  budget := .ofSettings s.maxSteps.toInt s.maxCallDepth.toInt

/-- The mode that settings ask for. -/
def mode (s : Settings) : RunMode := { debug := s.debug, dryRun := s.dryRun, time := s.time }

/-- The code a run ends with. -/
def exitCode : RunEnd → Int
  | .finished report => report.exitCode.toInt
  | .stuck _ => 2
  | .refused _ | .failed _ _ | .unfinished _ => 1

/-- Runs a program under settings. -/
def runScript (s : Settings) (script : Script) (stdin : Bytes) : Outcome :=
  let (ending, w) := (runner s).run (some (mode s)) script.name script.contents
    { source := { rest := stdin } }
  { code := exitCode ending, out := w.out.text, err := w.err.text }

/-- Runs the program that is asked for. -/
def run (i : Invocation) (files : Files) (env : Environment) (stdin : Bytes) : Outcome :=
  match Settings.load files env i.overrides with
  | .error why => .unset why
  | .ok s =>
    match Script.resolve files i.code i.input with
    | .error why => .refused why.message
    | .ok script => runScript s script stdin

/-- Starts the site and stops it again. -/
def serve (i : Invocation) (files : Files) (env : Environment) : Outcome :=
  match Settings.load files env i.overrides with
  | .error why => .unset why
  | .ok s =>
    match Site.build files s with
    | .error _ => { code := 1 }
    | .ok _ => { code := 0 }

/-- Does what is asked for. -/
def perform (i : Invocation) (files : Files) (env : Environment) (stdin : Bytes) : Outcome :=
  match i.command with
  | .run => i.run files env stdin
  | .serve => i.serve files env
  | .version => { code := 0, out := Outcome.versionLine }

end Invocation

namespace CommandLine

/-- How often a line asks for the release by a flag, whichever way the flag is turned. -/
def versionRequests (l : CommandLine) : Nat := l.given.countP (·.flag = .version)

/-- Carries out a command line. If the release is asked for by a flag, it is shown as often as it is
asked for and nothing else happens, not even if the line makes no sense otherwise. -/
def execute (files : Files) (env : Environment) (stdin : Bytes) (line : List Bytes) : Outcome :=
  let (fault, l) := read files line
  if 0 < l.versionRequests then
    { code := 0, out := Bytes.times l.versionRequests Outcome.versionLine }
  else
    match fault with
    | some why => .misread why
    | none =>
      match Invocation.ofLine l with
      | .error why => .misread why
      | .ok i => i.perform files env stdin

end CommandLine
end Scriptlet
