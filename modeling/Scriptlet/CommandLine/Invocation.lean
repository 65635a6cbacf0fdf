import Scriptlet.CommandLine
import Scriptlet.Settings

/-!
# Invocation: what a command line asks for

The flags of a line become settings that the line overrides, together with the program to run.
Arguments of flags that count something are read as numbers, and the first that is none is refused.
-/

namespace Scriptlet

/-- A command with what is to be known about it. -/
structure Invocation where
  command : Command
  overrides : Overrides := {}
  /-- Program text given inline. -/
  code : Bytes := []
  /-- The path of a program. -/
  input : Bytes := []
deriving DecidableEq, Repr

namespace Invocation

/-- An argument that is an integer, perhaps with a base mark. -/
def integer (text : Bytes) : Except LineFault Int64 := (readLiteral64 text).mapError (.integer text)

/-- An argument that is a number. -/
def number (text : Bytes) : Except LineFault Binary64 :=
  (Binary64.read text).mapError (.number text)

/-- The invocation with a switch turned on or off. -/
def turn (i : Invocation) (on : Bool) : Flag → Invocation
  | .debug => { i with overrides := { i.overrides with debug := some on } }
  | .dryRun => { i with overrides := { i.overrides with dryRun := some on } }
  | .time => { i with overrides := { i.overrides with time := some on } }
  | .color => { i with overrides := { i.overrides with color := some on } }
  | _ => i

/-- The invocation with the argument of a flag taken up. A burst may be written as any number and
is cut to an integer. -/
def take (i : Invocation) (text : Bytes) : Flag → Except LineFault Invocation
  | .config => .ok { i with overrides := { i.overrides with configFile := text } }
  | .envFile => .ok { i with overrides := { i.overrides with envFile := text } }
  | .logLevel => .ok { i with overrides := { i.overrides with logLevel := some text } }
  | .port => .ok { i with overrides := { i.overrides with port := some text } }
  | .code => .ok { i with code := text }
  | .maxSteps => do
    let n ← integer text
    return { i with overrides := { i.overrides with maxSteps := some n } }
  | .rateLimitRps => do
    let x ← number text
    return { i with overrides := { i.overrides with rateLimitRps := some x } }
  | .rateLimitBurst => do
    let x ← number text
    return { i with overrides := { i.overrides with rateLimitBurst := some x.truncate } }
  | _ => .ok i

/-- The invocation with one more flag. -/
def apply (i : Invocation) : Given → Except LineFault Invocation
  | .switch f on => .ok (i.turn on f)
  | .value f text => i.take text f

/-- The invocation with flags applied in order, none of them twice. -/
def applyAll : List Flag → List Given → Invocation → Except LineFault Invocation
  | _, [], i => .ok i
  | seen, g :: rest, i =>
    if seen.contains g.flag then .error (.repeated g.flag)
    else do applyAll (g.flag :: seen) rest (← i.apply g)

/-- What a line that was read asks for. -/
def ofLine (l : CommandLine) : Except LineFault Invocation :=
  applyAll [] l.given { command := l.command.getD .usual, input := l.arguments.headD [] }

end Invocation
end Scriptlet
