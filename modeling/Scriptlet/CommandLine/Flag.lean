import Scriptlet.Text.Bytes

/-!
# Flag: commands and what can be said about them

A command line names a command and gives flags. Some flags belong to one command and are known only
once that command is chosen. A switch is on or off; any other flag takes an argument.
-/

namespace Scriptlet

/-- What the program can be asked to do. -/
inductive Command where
  | run | serve | version
deriving DecidableEq, Repr

namespace Command

/-- All commands. -/
def all : List Command := [.run, .serve, .version]

/-- The name of a command. -/
def name : Command → Bytes
  | .run => utf8 "run"
  | .serve => utf8 "serve"
  | .version => utf8 "version"

/-- The command of a name. -/
def ofName? (name : Bytes) : Option Command := all.find? (·.name = name)

/-- The command of a line that names none. -/
def usual : Command := .run

/-- How many arguments besides flags a command takes. -/
def arguments : Command → Nat
  | .run => 1
  | .serve | .version => 0

end Command

/-- What can be set on a command line. -/
inductive Flag where
  | config | envFile | logLevel | version
  | debug | dryRun | time | color | maxSteps | code
  | port | rateLimitRps | rateLimitBurst
deriving DecidableEq, Repr

namespace Flag

/-- All flags. -/
def all : List Flag :=
  [.config, .envFile, .logLevel, .version, .debug, .dryRun, .time, .color, .maxSteps, .code, .port,
    .rateLimitRps, .rateLimitBurst]

/-- The name of a flag. -/
def name : Flag → Bytes
  | .config => utf8 "config"
  | .envFile => utf8 "env-file"
  | .logLevel => utf8 "log-level"
  | .version => utf8 "version"
  | .debug => utf8 "debug"
  | .dryRun => utf8 "dry-run"
  | .time => utf8 "time"
  | .color => utf8 "color"
  | .maxSteps => utf8 "max-steps"
  | .code => utf8 "code"
  | .port => utf8 "port"
  | .rateLimitRps => utf8 "rate-limit-rps"
  | .rateLimitBurst => utf8 "rate-limit-burst"

/-- The letter that stands for a flag. -/
def letter? : Flag → Option Bytes
  | .debug => some (utf8 "d")
  | .time => some (utf8 "t")
  | .code => some (utf8 "c")
  | _ => none

/-- Whether a flag is on or off, without an argument. -/
def isSwitch : Flag → Bool
  | .version | .debug | .dryRun | .time | .color => true
  | _ => false

/-- The command that a flag belongs to, if it is not for all of them. -/
def command? : Flag → Option Command
  | .config | .envFile | .logLevel | .version => none
  | .debug | .dryRun | .time | .color | .maxSteps | .code => some .run
  | .port | .rateLimitRps | .rateLimitBurst => some .serve

/-- The flags that are known once `chosen` is the command. -/
def known (chosen : Option Command) : List Flag :=
  all.filter fun f => f.command? = none || f.command? = chosen

/-- The known flag of a name. -/
def named? (chosen : Option Command) (name : Bytes) : Option Flag :=
  (known chosen).find? (·.name = name)

/-- The known flag of a letter. -/
def lettered? (chosen : Option Command) (letter : Bytes) : Option Flag :=
  (known chosen).find? (·.letter? = some letter)

end Flag

/-- A flag as a command line gives it. -/
inductive Given where
  | switch (flag : Flag) (on : Bool)
  | value (flag : Flag) (text : Bytes)
deriving DecidableEq, Repr

/-- The flag that is given. -/
def Given.flag : Given → Flag
  | .switch f _ | .value f _ => f

end Scriptlet
