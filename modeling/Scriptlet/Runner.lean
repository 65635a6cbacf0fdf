import Scriptlet.Diagnostic.Drawing
import Scriptlet.Log
import Scriptlet.Machine.Execution
import Scriptlet.Program.Outline
import Scriptlet.Program.Parser
import Scriptlet.Store

/-!
# Runner: from a source text to a finished run

A runner reads a program, runs it on a fresh machine and reports how it went. In debug mode the
tokens and the tree are shown first; a completed run ends with a blank line, preceded by the time
taken if that is asked for; a program that exits ends on the spot. Language errors are drawn on the
error stream. Parsed programs may come from a store, which changes nothing but the report.
-/

namespace Scriptlet

/-- How a program is to be treated. It is released once and useless afterwards. -/
structure RunMode where
  /-- Show the tokens, the tree and the time taken. -/
  debug : Bool := false
  /-- Stop after parsing. -/
  dryRun : Bool := false
  /-- Show the time taken. -/
  time : Bool := false
  released : Bool := false
deriving DecidableEq, Repr

/-- Why a mode cannot be used. -/
inductive ModeFault where
  | missing
  | released
deriving DecidableEq, Repr

namespace ModeFault

/-- The key of the error. -/
def key : ModeFault → Bytes
  | .missing => utf8 "OXIDO_NIL_CONFIG"
  | .released => utf8 "OXIDO_CONFIG_RELEASED"

/-- The error in words, after its key. -/
def message (f : ModeFault) : Bytes :=
  let words := match f with
    | .missing => utf8 "config is nil"
    | .released => utf8 "config has already been released"
  utf8 "[" ++ f.key ++ utf8 "]: " ++ words

end ModeFault

/-- A mode that can still be used. -/
def RunMode.usable : Option RunMode → Except ModeFault RunMode
  | none => .error .missing
  | some m => if m.released then .error .released else .ok m

/-- Releases a mode; a second release is refused like any other use. -/
def RunMode.release (m : Option RunMode) : Except ModeFault RunMode :=
  (RunMode.usable m).map fun m => { m with released := true }

/-- A program that was read. -/
structure Loaded where
  tokens : List Token
  program : Program

/-- What a run did. -/
structure Report where
  name : Bytes
  tokens : Nat := 0
  statements : Nat := 0
  /-- False for dry runs and for programs that could not be read. -/
  executed : Bool := false
  /-- Whether the parsed program came from the store. -/
  cached : Bool := false
  exitCode : Int64 := 0
deriving DecidableEq, Repr

/-- How a run ended. -/
inductive RunEnd where
  /-- The mode could not be used, so nothing was done. -/
  | refused (why : ModeFault)
  | finished (report : Report)
  | failed (report : Report) (d : Diagnostic)
  /-- The machine reached a state that no parsed program reaches. -/
  | stuck (report : Report)
  /-- The run was not followed to its end. -/
  | unfinished (report : Report)

/-- The report of a run, if there is one. -/
def RunEnd.report? : RunEnd → Option Report
  | .refused _ => none
  | .finished r | .failed r _ | .stuck r | .unfinished r => some r

/-- How a runner runs programs. -/
structure Runner where
  paint : Paint := .plain
  budget : Budget := {}
  /-- Bounds how far a run is followed. -/
  fuel : Nat := Machine.ampleFuel
  /-- Stands for every time taken. -/
  elapsed : Bytes := utf8 "ELAPSED"
  /-- The fields every log entry of the runner carries. -/
  context : List LogField := []

/-- What a runner reads, writes and reuses. -/
structure Surface where
  out : Sink := .empty none
  err : Sink := .empty none
  source : Source := {}
  store : Option (Store Loaded) := none
  log : List LogEntry := []

/-- Runner actions; a diagnostic ends them. -/
abbrev Runner.Action := EStateM Diagnostic Surface

namespace Surface

/-- Records an event. -/
def record (entry : LogEntry) (w : Surface) : Surface := { w with log := w.log ++ [entry] }

end Surface

namespace Runner

/-- Writes runner output as one write. -/
def emit (text : Bytes) : Action Unit := do
  let (taken, out) := (← get).out.write text
  modify fun w => { w with out }
  match taken with
  | .ok _ => pure ()
  | .error reason => throw ⟨.writeFailed reason, .origin⟩

/-- Shows one reading of the program and the time taken. -/
def emitDump (e : Runner) (title dump : Bytes) : Action Unit :=
  emit (title ++ dump ++ utf8 "\n\nTIME: " ++ e.elapsed ++ utf8 "\n\n")

/-- Shows the tokens, if debugging. -/
def dumpTokens (e : Runner) (mode : RunMode) (tokens : List Token) : Action Unit :=
  if mode.debug then e.emitDump (utf8 "LEXER: ") (Token.listing tokens) else pure ()

/-- Shows the tree, if debugging. -/
def dumpProgram (e : Runner) (mode : RunMode) (p : Program) : Action Unit :=
  if mode.debug then e.emitDump (utf8 "AST: ") p.outline else pure ()

/-- A stage of reading a program. -/
def stage {α : Type} : Except Diagnostic α → Action α
  | .ok a => pure a
  | .error d => throw d

/-- Reads a program, showing each stage as it is done. -/
def read (e : Runner) (mode : RunMode) (source : Bytes) : Action Loaded := do
  let tokens ← stage (Token.lex source)
  e.dumpTokens mode tokens
  let program ← stage (Program.parse tokens)
  e.dumpProgram mode program
  return { tokens, program }

/-- Looks a source up in the store, if there is one. -/
def lookUp (source : Bytes) : Action (Option Loaded) := do
  match (← get).store with
  | none => return none
  | some store =>
    let (found, store) := store.get (Store.key source)
    modify fun w => { w with store }
    return found

/-- Keeps a program in the store, if there is one. -/
def keep (source : Bytes) (loaded : Loaded) : Action Unit :=
  modify fun w => { w with store := w.store.map (·.add (Store.key source) loaded) }

/-- The end of a completed run: the time taken if asked for, then a blank line. -/
def trailer (e : Runner) (mode : RunMode) : Action Unit := do
  if mode.debug || mode.time then emit (utf8 "\nTIME: " ++ e.elapsed ++ utf8 "\n")
  emit (utf8 "\n")

/-- Draws a language error on the error stream; if that cannot be written, the log says so. -/
def draw (e : Runner) (name source : Bytes) (d : Diagnostic) (w : Surface) : Surface :=
  match w.err.write (d.notice.render e.paint name source) with
  | (.ok _, err) => { w with err }
  | (.error reason, err) =>
    Surface.record ⟨.warn, utf8 "failed to render diagnostic",
      e.context ++ [(utf8 "error", .text reason)]⟩ { w with err }

/-- A log entry about the program `name`. -/
def event (e : Runner) (name message : Bytes) (fields : List LogField) : LogEntry :=
  ⟨.debug, message, e.context ++ (utf8 "program", .text name) :: fields⟩

/-- Runs a parsed program on a fresh machine: how it halted, if it did, and its steps as they were
counted. -/
def execute (e : Runner) (p : Program) (w : Surface) : Option Halt × Int64 × Surface :=
  let start : Machine := { input := .ofSource w.source, output := w.out }
  let (halt, m) := match Machine.run e.budget e.fuel p start with
    | .ok _ m => (none, m)
    | .error h m => (some h, m)
  (halt, m.counter, { w with out := m.output, source := m.input.source })

/-- The log entries about an execution. A run cancelled from the start leaves none. -/
def executionEvents (e : Runner) (name : Bytes) (halt : Option Halt) (steps : Int64)
    (begun : Bool) : List LogEntry :=
  let exited := match halt with
    | some (.exit code) => [e.event name (utf8 "program exit") [(utf8 "code", .number code.toInt)]]
    | _ => []
  if begun then
    exited ++ [e.event name (utf8 "execution finished")
      [(utf8 "steps", .number steps.toInt), (utf8 "failed", .flag halt.isSome)]]
  else []

/-- Ends a run whose program was executed, by how that halted, if it did. -/
def conclude (e : Runner) (mode : RunMode) (name source : Bytes) (halt : Option Halt)
    (steps : Int64) (report : Report) (w : Surface) : RunEnd × Surface :=
  let close (report : Report) (w : Surface) : RunEnd × Surface :=
    (.finished report, w.record (e.event name (utf8 "program finished")
      [(utf8 "steps", .number steps.toInt),
        (utf8 "exit_code", .number report.exitCode.toInt)]))
  match halt with
  | some (.exit code) => close { report with exitCode := code } w
  | some (.fault d) => (.failed report d, e.draw name source d w)
  | some .stuck => (.stuck report, w)
  | some .outOfFuel => (.unfinished report, w)
  | none =>
    match e.trailer mode w with
    | .ok _ w => close report w
    | .error d w => (.failed report d, e.draw name source d w)

/-- Runs a program that was read, and ends the run. -/
def perform (e : Runner) (mode : RunMode) (name source : Bytes) (loaded : Loaded) (report : Report)
    (w : Surface) : RunEnd × Surface :=
  let begun := (e.budget.cancelled { input := .ofSource w.source, output := w.out }).isNone
  let (halt, steps, w) := e.execute loaded.program w
  e.conclude mode name source halt steps { report with executed := true }
    { w with log := w.log ++ e.executionEvents name halt steps begun }

/-- Goes on with a program that was read. -/
def proceed (e : Runner) (mode : RunMode) (name source : Bytes) (loaded : Loaded) (cached : Bool)
    (w : Surface) : RunEnd × Surface :=
  let report : Report :=
    { name, tokens := loaded.tokens.length, statements := loaded.program.length, cached }
  let w := w.record (e.event name (utf8 "program parsed")
    [(utf8 "tokens", .number report.tokens), (utf8 "statements", .number report.statements),
      (utf8 "cached", .flag cached)])
  if mode.dryRun then (.finished report, w) else e.perform mode name source loaded report w

/-- Reads a program, from the store if it is there; says also whether it was. -/
def load (e : Runner) (mode : RunMode) (source : Bytes) (w : Surface) :
    Bool × EStateM.Result Diagnostic Surface Loaded :=
  match lookUp source w with
  | .ok (some loaded) w =>
    (true, (do e.dumpTokens mode loaded.tokens; e.dumpProgram mode loaded.program; return loaded) w)
  | .ok none w => (false, (do let loaded ← e.read mode source; keep source loaded; return loaded) w)
  | .error d w => (false, .error d w)

/-- Runs the program `name` with the given source. -/
def run (e : Runner) (mode : Option RunMode) (name source : Bytes) (w : Surface) :
    RunEnd × Surface :=
  match RunMode.usable mode with
  | .error why => (.refused why, w)
  | .ok mode =>
    match e.load mode source w with
    | (cached, .ok loaded w) => e.proceed mode name source loaded cached w
    | (cached, .error d w) => (.failed { name, cached } d, e.draw name source d w)

end Runner

/-- The release of the program. -/
def version : Bytes := utf8 "0.1.0"

/-- What an exit with a code other than zero is called. -/
def exitMessage (code : Int64) : Bytes :=
  utf8 "program exited with code " ++ signedDecimal code.toInt

end Scriptlet
