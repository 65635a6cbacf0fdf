import Scriptlet.Text.Case
import Scriptlet.Text.Quoted

/-!
# Log: events worth recording

An entry has a level, a message and named fields. A level is asked for by name, in any letter case;
entries below it are not recorded.
-/

namespace Scriptlet

/-- How grave an event is, from the least. -/
inductive Level where
  | debug | info | warn | error | dpanic | panic | fatal
deriving DecidableEq, Repr

namespace Level

/-- All levels, from the least grave. -/
def all : List Level := [.debug, .info, .warn, .error, .dpanic, .panic, .fatal]

/-- The name of a level. -/
def name : Level → Bytes
  | .debug => utf8 "debug"
  | .info => utf8 "info"
  | .warn => utf8 "warn"
  | .error => utf8 "error"
  | .dpanic => utf8 "dpanic"
  | .panic => utf8 "panic"
  | .fatal => utf8 "fatal"

/-- The place of a level in the order of gravity. -/
def rank : Level → Nat
  | .debug => 0
  | .info => 1
  | .warn => 2
  | .error => 3
  | .dpanic => 4
  | .panic => 5
  | .fatal => 6

/-- The level of a name in any letter case; no name at all means `info`. -/
def ofName? (name : Bytes) : Option Level :=
  if name.isEmpty then some .info else all.find? (·.name = foldCase name)

/-- What a name that no level has is answered with. -/
def refusal (name : Bytes) : Bytes :=
  utf8 "parse log level: unrecognized level: " ++ quoted name

/-- Whether a logger of level `least` records entries of level `l`. -/
def records (least l : Level) : Bool := least.rank ≤ l.rank

end Level

/-- What a field of an entry holds. -/
inductive LogValue where
  | text (s : Bytes)
  | number (n : Int)
  | flag (b : Bool)
deriving DecidableEq, Repr

/-- A named field. -/
abbrev LogField := Bytes × LogValue

/-- A recorded event. -/
structure LogEntry where
  level : Level
  message : Bytes
  fields : List LogField := []
deriving DecidableEq, Repr

end Scriptlet
