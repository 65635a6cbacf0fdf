import Scriptlet.Diagnostic
import Scriptlet.Machine.Scope
import Scriptlet.Program
import Scriptlet.Stream.Input
import Scriptlet.Stream.Sink

/-!
# Machine: the state of a running program

A machine holds the variables, the declared functions, the streams, the steps taken so far and the
calls in progress. It outlives a program, so that several programs can run one after the other on
the same variables. Functions see their own variables and the global ones, never those of their
caller.

Steps are counted in a word of 64 bits, and what is decided by them is decided by this counter. The
least number follows the greatest.
-/

namespace Scriptlet

/-- A declared function. -/
structure Function where
  params : List Param
  result : Option Ty
  body : List Stmt
deriving Repr

/-- The state of a machine. -/
structure Machine where
  globals : Scope := []
  /-- The variables of the function being run; none at the top level. -/
  locals : Option Scope := none
  functions : List (Bytes × Function) := []
  /-- Statements and loop rounds so far, however many. What can be seen of them is the counter. -/
  steps : Nat := 0
  /-- Calls of declared functions in progress. -/
  depth : Nat := 0
  input : Input := {}
  output : Sink := .empty none

/-- What a run may use up. -/
structure Budget where
  /-- The greatest number that the counter of a machine may show; zero and less for any. -/
  steps : Int64 := 0
  /-- The most calls that may be in progress. -/
  depth : Nat := 512
  /-- Whether, and why, the run is cancelled by the time the machine is in the given state. -/
  cancelled : Machine → Option Bytes := fun _ => none

namespace Budget

/-- A budget from settings in which zero or less means no setting. -/
def ofSettings (steps depth : Int) : Budget :=
  let b : Budget := { steps := .ofInt steps }
  if 0 < depth then { b with depth := depth.toNat } else b

/-- Why a run that was called off stops. -/
def calledOff : Bytes := utf8 "context canceled"

/-- Why a run that took too long stops. -/
def overdue : Bytes := utf8 "context deadline exceeded"

/-- The budget of a run that is called off as soon as its output has taken `n` writes. -/
def callOffAfter (n : Nat) (b : Budget) : Budget :=
  { b with cancelled := fun m => if n ≤ m.output.writes then some calledOff else none }

/-- The budget of a run whose time is up before it starts. -/
def expired (b : Budget) : Budget := { b with cancelled := fun _ => some overdue }

end Budget

/-- What ends a run before its last statement. -/
inductive Halt where
  | fault (d : Diagnostic)
  /-- The program asked to end with this code. -/
  | exit (code : Int64)
  /-- A state that no parsed program reaches. -/
  | stuck
  /-- The run was not followed to its end. -/
  | outOfFuel
deriving Repr

/-- Actions on a machine; the machine is left in its last state however the action ends. -/
abbrev Exec := EStateM Halt Machine

/-- How often cancellation is looked at, in steps. -/
def cancelInterval : Int64 := 64

namespace Machine

/-- Fuel for more than can be waited for. -/
def ampleFuel : Nat := 4611686018427387904

/-- What the counter shows: the steps so far, of which a word keeps the low bits. -/
def counter (m : Machine) : Int64 := .ofNat m.steps

/-- The function declared under a name. -/
def function? (m : Machine) (name : Bytes) : Option Function := m.functions.lookup name

/-- Declares a function, replacing an earlier one of that name. -/
def define (name : Bytes) (f : Function) (m : Machine) : Machine :=
  { m with functions := (name, f) :: m.functions.filter (·.1 != name) }

/-- The slot a name refers to: the function's own variables hide the global ones. -/
def slot? (m : Machine) (name : Bytes) : Option Slot :=
  match m.locals with
  | none => m.globals.find? name
  | some own =>
    match own.find? name with
    | some s => some s
    | none => m.globals.find? name

/-- Declares a variable at the current level. -/
def declare (name : Bytes) (v : Value) (m : Machine) : Machine :=
  match m.locals with
  | none => { m with globals := m.globals.declare name ⟨v.type, v⟩ }
  | some own => { m with locals := some (own.declare name ⟨v.type, v⟩) }

/-- Gives the variable a name refers to a new value. -/
def assign (name : Bytes) (v : Value) (m : Machine) : Machine :=
  match m.locals with
  | none => { m with globals := m.globals.assign name v }
  | some own =>
    match own.find? name with
    | some _ => { m with locals := some (own.assign name v) }
    | none => { m with globals := m.globals.assign name v }

end Machine

namespace Exec

/-- Stops with a language error. -/
def fail {α : Type} (fault : Fault) (span : Span) : Exec α := throw (.fault ⟨fault, span⟩)

/-- Stops because a value is not what was needed. -/
def mismatch {α : Type} (need : Need) (got : Value) (span : Span) : Exec α :=
  fail (.mismatch need got.type) span

/-- Counts one step, and stops if the counter is then beyond the budget or if cancellation is looked
at and has happened. -/
def tick (budget : Budget) (span : Span) : Exec Unit := do
  modify fun m => { m with steps := m.steps + 1 }
  let m ← get
  if 0 < budget.steps ∧ budget.steps < m.counter then fail (.stepLimit budget.steps) span
  else if m.counter % cancelInterval = 0 then
    match budget.cancelled m with
    | some reason => fail (.cancelled reason) span
    | none => pure ()
  else pure ()

/-- Runs an action as the body of a call with its own variables. The calls in progress are counted
up before it and down after it; however it ends, the caller's variables are what they were. -/
def inCall {α : Type} (own : Scope) (body : Exec α) : Exec α := fun m =>
  match body { m with locals := some own, depth := m.depth + 1 } with
  | .ok a n => .ok a { n with locals := m.locals, depth := n.depth - 1 }
  | .error h n => .error h { n with locals := m.locals, depth := n.depth - 1 }

/-- Writes to the output as one write. -/
def write (span : Span) (text : Bytes) : Exec Unit := do
  let (taken, sink) := (← get).output.write text
  modify fun m => { m with output := sink }
  match taken with
  | .ok _ => pure ()
  | .error reason => fail (.writeFailed reason) span

/-- Reads the next line of the input. -/
def readLine (span : Span) : Exec Bytes := do
  let (line, rest) := (← get).input.readLine
  modify fun m => { m with input := rest }
  match line with
  | .ok text => return text
  | .error reason => fail (.readFailed reason) span

end Exec
end Scriptlet
