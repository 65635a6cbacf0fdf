import Scriptlet.Document.Fields
import Scriptlet.Document.Reader
import Scriptlet.Number.Duration
import Scriptlet.Number.Shortest
import Scriptlet.Settings.Environment
import Scriptlet.Text.Case
import Scriptlet.Text.Quoted

/-!
# Settings: what the program is set up with

Settings come in layers. The command line speaks first, then a settings file, then the environment,
and defaults stand behind all of them. A layer that says nothing about a setting leaves it to the
next. What comes out must satisfy the constraints, or there are no settings at all.
-/

namespace Scriptlet

/-- All settings. Times are in nanoseconds. -/
structure Settings where
  debug : Bool := false
  dryRun : Bool := false
  time : Bool := false
  color : Bool := true
  /-- The step budget of runs from the command line; zero for any number. -/
  maxSteps : Int64 := 0
  maxCallDepth : Int64 := 10000
  logLevel : Bytes := utf8 "info"
  port : Bytes := utf8 "8080"
  playgroundMaxSteps : Int64 := 1000000
  playgroundMaxCallDepth : Int64 := 512
  runTimeout : Int64 := 5000000000
  maxSourceBytes : Int64 := 65536
  cacheSize : Int64 := 256
  shutdownGracePeriod : Int64 := 10000000000
  readHeaderTimeout : Int64 := 5000000000
  writeTimeout : Int64 := 15000000000
  idleTimeout : Int64 := 60000000000
  enableRequestLogging : Bool := true
  rateLimitRps : Binary64 := .ofInt 10
  rateLimitBurst : Int64 := 20
deriving DecidableEq, Repr

/-- One source of settings: what it says, where it says anything. -/
structure Layer where
  debug : Option Bool := none
  dryRun : Option Bool := none
  time : Option Bool := none
  color : Option Bool := none
  maxSteps : Option Int64 := none
  maxCallDepth : Option Int64 := none
  logLevel : Option Bytes := none
  port : Option Bytes := none
  playgroundMaxSteps : Option Int64 := none
  playgroundMaxCallDepth : Option Int64 := none
  runTimeout : Option Int64 := none
  maxSourceBytes : Option Int64 := none
  cacheSize : Option Int64 := none
  shutdownGracePeriod : Option Int64 := none
  readHeaderTimeout : Option Int64 := none
  writeTimeout : Option Int64 := none
  idleTimeout : Option Int64 := none
  enableRequestLogging : Option Bool := none
  rateLimitRps : Option Binary64 := none
  rateLimitBurst : Option Int64 := none
deriving DecidableEq, Repr

/-- The settings with those a layer speaks about replaced. -/
def Settings.under (s : Settings) (l : Layer) : Settings where
  debug := l.debug.getD s.debug
  dryRun := l.dryRun.getD s.dryRun
  time := l.time.getD s.time
  color := l.color.getD s.color
  maxSteps := l.maxSteps.getD s.maxSteps
  maxCallDepth := l.maxCallDepth.getD s.maxCallDepth
  logLevel := l.logLevel.getD s.logLevel
  port := l.port.getD s.port
  playgroundMaxSteps := l.playgroundMaxSteps.getD s.playgroundMaxSteps
  playgroundMaxCallDepth := l.playgroundMaxCallDepth.getD s.playgroundMaxCallDepth
  runTimeout := l.runTimeout.getD s.runTimeout
  maxSourceBytes := l.maxSourceBytes.getD s.maxSourceBytes
  cacheSize := l.cacheSize.getD s.cacheSize
  shutdownGracePeriod := l.shutdownGracePeriod.getD s.shutdownGracePeriod
  readHeaderTimeout := l.readHeaderTimeout.getD s.readHeaderTimeout
  writeTimeout := l.writeTimeout.getD s.writeTimeout
  idleTimeout := l.idleTimeout.getD s.idleTimeout
  enableRequestLogging := l.enableRequestLogging.getD s.enableRequestLogging
  rateLimitRps := l.rateLimitRps.getD s.rateLimitRps
  rateLimitBurst := l.rateLimitBurst.getD s.rateLimitBurst

/-! ## The environment -/

/-- A truth value as it is spelled in the environment. -/
def readTruth? (s : Bytes) : Option Bool :=
  if [utf8 "1", utf8 "t", utf8 "T", utf8 "TRUE", utf8 "true", utf8 "True"].contains s then
    some true
  else if [utf8 "0", utf8 "f", utf8 "F", utf8 "FALSE", utf8 "false", utf8 "False"].contains s then
    some false
  else none

namespace Environment

/-- A variable's value as text, unless it is empty. -/
def text? (env : Environment) (name : String) : Option Bytes :=
  let s := env.trimmed (utf8 name)
  if s.isEmpty then none else some s

/-- A variable's truth value. -/
def truth? (env : Environment) (name : String) : Option Bool := readTruth? (env.trimmed (utf8 name))

/-- A variable's integer, if it is at least `least`. -/
def atLeast? (env : Environment) (least : Int64) (name : String) : Option Int64 :=
  match readInt64 (env.trimmed (utf8 name)) with
  | .ok n => if least ≤ n then some n else none
  | .error _ => none

/-- A variable's duration, if it is positive. -/
def duration? (env : Environment) (name : String) : Option Int64 :=
  match Duration.read (env.trimmed (utf8 name)) with
  | .ok d => if 0 < d then some d else none
  | .error _ => none

/-- A variable's number, if it is not below zero. -/
def rate? (env : Environment) (name : String) : Option Binary64 :=
  match Binary64.read (env.trimmed (utf8 name)) with
  | .ok x => if x.isAtLeastZero then some x else none
  | .error _ => none

end Environment

/-- What the environment says. Malformed values say nothing, and the mere presence of `NO_COLOR`
turns colours off. -/
def Layer.ofEnvironment (env : Environment) : Layer where
  debug := env.truth? "OXIDO_DEBUG"
  dryRun := env.truth? "OXIDO_DRY_RUN"
  time := env.truth? "OXIDO_TIME"
  color := if (env.get? (utf8 "NO_COLOR")).isSome then some false else env.truth? "OXIDO_COLOR"
  maxSteps := env.atLeast? 0 "OXIDO_MAX_STEPS"
  maxCallDepth := env.atLeast? 1 "OXIDO_MAX_CALL_DEPTH"
  logLevel := env.text? "OXIDO_LOG_LEVEL"
  port := env.text? "PORT"
  playgroundMaxSteps := env.atLeast? 1 "OXIDO_PLAYGROUND_MAX_STEPS"
  playgroundMaxCallDepth := env.atLeast? 1 "OXIDO_PLAYGROUND_MAX_CALL_DEPTH"
  runTimeout := env.duration? "OXIDO_RUN_TIMEOUT"
  maxSourceBytes := env.atLeast? 1 "OXIDO_MAX_SOURCE_BYTES"
  cacheSize := env.atLeast? 1 "OXIDO_CACHE_SIZE"
  rateLimitRps := env.rate? "RATE_LIMIT_RPS"
  rateLimitBurst := env.atLeast? 0 "RATE_LIMIT_BURST"

/-- The variables that the environment is asked for. -/
def Settings.variables : List String :=
  ["OXIDO_DEBUG", "OXIDO_DRY_RUN", "OXIDO_TIME", "NO_COLOR", "OXIDO_COLOR", "OXIDO_MAX_STEPS",
    "OXIDO_MAX_CALL_DEPTH", "OXIDO_LOG_LEVEL", "PORT", "OXIDO_PLAYGROUND_MAX_STEPS",
    "OXIDO_PLAYGROUND_MAX_CALL_DEPTH", "OXIDO_RUN_TIMEOUT", "OXIDO_MAX_SOURCE_BYTES",
    "OXIDO_CACHE_SIZE", "RATE_LIMIT_RPS", "RATE_LIMIT_BURST"]

/-! ## Settings files -/

/-- Why a settings file is not used. -/
inductive FileFault where
  | unreadable (why : Files.ReadFault)
  /-- The file is no settings file, or a value in it is of the wrong kind. -/
  | malformed
  | duration (key : Bytes) (why : DurationFault)
deriving DecidableEq, Repr

namespace Document

/-- The names that settings files are asked for. -/
def settingNames : List Bytes :=
  [utf8 "debug", utf8 "dry_run", utf8 "time", utf8 "color", utf8 "max_steps",
    utf8 "max_call_depth", utf8 "log_level", utf8 "playground_max_steps",
    utf8 "playground_max_call_depth", utf8 "port", utf8 "run_timeout", utf8 "max_source_bytes",
    utf8 "cache_size", utf8 "shutdown_grace_period", utf8 "read_header_timeout",
    utf8 "write_timeout", utf8 "idle_timeout", utf8 "enable_request_logging", utf8 "rate_limit"]

/-- The names within the section on rates. -/
def rateNames : List Bytes := [utf8 "rps", utf8 "burst"]

/-- The fields of a section, by name. -/
abbrev Section := List (Bytes × Placed)

/-- The fields of a section; nothing at all counts as an empty section. -/
def fields (d : Document) (known : List Bytes) (p : Option Placed) : Except FileFault Section :=
  match p with
  | none => .ok []
  | some p =>
    match d.fields? known p with
    | some fs => .ok fs
    | none => .error .malformed

/-- Words that are truth values where one is required. -/
def truthWord? (s : Bytes) : Option Bool :=
  let affirmed := ["y", "Y", "yes", "Yes", "YES", "on", "On", "ON"]
  let denied := ["n", "N", "no", "No", "NO", "off", "Off", "OFF"]
  if (affirmed.map utf8).contains s then some true
  else if (denied.map utf8).contains s then some false
  else none

/-- An optional value of some kind, made of what it stands for and its text: nothing if there is
none, an error if it is of another kind. -/
def optional {α : Type} (d : Document) (kind : Datum → Bytes → Option α) (fs : Section)
    (name : String) : Except FileFault (Option α) :=
  match fs.lookup (utf8 name) with
  | none => .ok none
  | some p =>
    match d.datum? p with
    | none => .error .malformed
    | some (.nothing, _) => .ok none
    | some (what, text) =>
      match kind what text with
      | some a => .ok (some a)
      | none => .error .malformed

/-- A truth value. -/
def truth (d : Document) : Section → String → Except FileFault (Option Bool) :=
  d.optional fun what _ =>
    match what with
    | .truth b => some b
    | .text s => truthWord? s
    | _ => none

/-- A 64-bit integer; other numbers are cut, and refused if they are too large. -/
def integer (d : Document) : Section → String → Except FileFault (Option Int64) :=
  d.optional fun what _ =>
    match what with
    | .integer n =>
      if -(signedBound : Int) ≤ n ∧ n < signedBound then some (Int64.ofInt n) else none
    | .number (.finite negative m e) =>
      if negative || Binary64.floorMagnitude m e ≤ signedBound then
        some (Binary64.truncate (.finite negative m e))
      else none
    | .number (.infinite true) => some Int64.minValue
    | _ => none

/-- A number. -/
def number (d : Document) : Section → String → Except FileFault (Option Binary64) :=
  d.optional fun what _ =>
    match what with
    | .integer n => some (.ofInt n)
    | .number x => some x
    | _ => none

/-- The text of a scalar, whatever it stands for; empty text counts as none. -/
def text (d : Document) (fs : Section) (name : String) : Except FileFault (Option Bytes) :=
  (d.optional (fun _ text => some text) fs name).map fun s => s.filter (!·.isEmpty)

/-- A duration under the given key. -/
def timespan (key : String) : Option Bytes → Except FileFault (Option Int64)
  | none => .ok none
  | some s =>
    match Duration.read s with
    | .ok d => .ok (some d)
    | .error why => .error (.duration (utf8 key) why)

end Document

/-- What a settings file says. Values of the wrong kind are found before malformed durations. -/
def Layer.ofDocument (d : Document) : Except FileFault Layer := do
  let fs ← d.fields Document.settingNames (d.root.map fun node => { node })
  let truth := d.truth fs
  let integer := d.integer fs
  let text := d.text fs
  let debug ← truth "debug"
  let dryRun ← truth "dry_run"
  let time ← truth "time"
  let color ← truth "color"
  let maxSteps ← integer "max_steps"
  let maxCallDepth ← integer "max_call_depth"
  let logLevel ← text "log_level"
  let playgroundMaxSteps ← integer "playground_max_steps"
  let playgroundMaxCallDepth ← integer "playground_max_call_depth"
  let port ← text "port"
  let run ← text "run_timeout"
  let maxSourceBytes ← integer "max_source_bytes"
  let cacheSize ← integer "cache_size"
  let grace ← text "shutdown_grace_period"
  let readHeader ← text "read_header_timeout"
  let write ← text "write_timeout"
  let idle ← text "idle_timeout"
  let enableRequestLogging ← truth "enable_request_logging"
  let rates ← d.fields Document.rateNames (fs.lookup (utf8 "rate_limit"))
  let rateLimitRps ← d.number rates "rps"
  let rateLimitBurst ← d.integer rates "burst"
  let runTimeout ← Document.timespan "run_timeout" run
  let shutdownGracePeriod ← Document.timespan "shutdown_grace_period" grace
  let readHeaderTimeout ← Document.timespan "read_header_timeout" readHeader
  let writeTimeout ← Document.timespan "write_timeout" write
  let idleTimeout ← Document.timespan "idle_timeout" idle
  return {
    debug, dryRun, time, color, maxSteps, maxCallDepth, logLevel, port, playgroundMaxSteps,
    playgroundMaxCallDepth, runTimeout, maxSourceBytes, cacheSize, shutdownGracePeriod,
    readHeaderTimeout, writeTimeout, idleTimeout, enableRequestLogging, rateLimitRps,
    rateLimitBurst }

/-- What the settings file at a path says. -/
def Layer.ofFile (files : Files) (path : Bytes) : Except FileFault Layer :=
  match files.read path with
  | .error why => .error (.unreadable why)
  | .ok contents =>
    match Document.read? contents with
    | none => .error .malformed
    | some d => Layer.ofDocument d

/-! ## The command line -/

/-- What the command line asks for. Empty paths are no paths. -/
structure Overrides where
  configFile : Bytes := []
  envFile : Bytes := []
  debug : Option Bool := none
  dryRun : Option Bool := none
  time : Option Bool := none
  color : Option Bool := none
  maxSteps : Option Int64 := none
  logLevel : Option Bytes := none
  port : Option Bytes := none
  rateLimitRps : Option Binary64 := none
  rateLimitBurst : Option Int64 := none
deriving DecidableEq, Repr

/-- What the command line says: negative numbers and empty texts say nothing. -/
def Layer.ofOverrides (o : Overrides) : Layer where
  debug := o.debug
  dryRun := o.dryRun
  time := o.time
  color := o.color
  maxSteps := o.maxSteps.filter (0 ≤ ·)
  logLevel := o.logLevel.filter (!·.isEmpty)
  port := o.port.filter (!·.isEmpty)
  rateLimitRps := o.rateLimitRps.filter Binary64.isAtLeastZero
  rateLimitBurst := o.rateLimitBurst.filter (0 ≤ ·)

/-! ## Constraints -/

/-- Constraints that settings can break. -/
inductive Constraint where
  | rateLimitRps | rateLimitBurst | maxSteps | maxCallDepth | playgroundMaxSteps
  | playgroundMaxCallDepth | maxSourceBytes | cacheSize | runTimeout
  | logLevel (level : Bytes)
deriving DecidableEq, Repr

/-- What a broken constraint is answered with. -/
def Constraint.message : Constraint → Bytes
  | .rateLimitRps => utf8 "RATE_LIMIT_RPS must be >= 0"
  | .rateLimitBurst => utf8 "RATE_LIMIT_BURST must be >= 0"
  | .maxSteps => utf8 "max_steps must be >= 0"
  | .maxCallDepth => utf8 "max_call_depth must be positive"
  | .playgroundMaxSteps => utf8 "playground_max_steps must be positive"
  | .playgroundMaxCallDepth => utf8 "playground_max_call_depth must be positive"
  | .maxSourceBytes => utf8 "max_source_bytes must be positive"
  | .cacheSize => utf8 "cache_size must be positive"
  | .runTimeout => utf8 "run_timeout must be positive"
  | .logLevel level => utf8 "unknown log level " ++ quoted level

/-- The log levels that settings may name, in any letter case. -/
def Settings.logLevels : List Bytes := [utf8 "debug", utf8 "info", utf8 "warn", utf8 "error"]

/-- The first constraint that the settings break. -/
def Settings.broken? (s : Settings) : Option Constraint :=
  if s.rateLimitRps.isBelowZero then some .rateLimitRps
  else if s.rateLimitBurst < 0 then some .rateLimitBurst
  else if s.maxSteps < 0 then some .maxSteps
  else if s.maxCallDepth ≤ 0 then some .maxCallDepth
  else if s.playgroundMaxSteps ≤ 0 then some .playgroundMaxSteps
  else if s.playgroundMaxCallDepth ≤ 0 then some .playgroundMaxCallDepth
  else if s.maxSourceBytes ≤ 0 then some .maxSourceBytes
  else if s.cacheSize ≤ 0 then some .cacheSize
  else if s.runTimeout ≤ 0 then some .runTimeout
  else if !Settings.logLevels.contains (foldCase s.logLevel) then some (.logLevel s.logLevel)
  else none

/-! ## Loading -/

/-- Why there are no settings. -/
inductive SettingsFault where
  | file (why : FileFault)
  | constraint (c : Constraint)
deriving DecidableEq, Repr

/-- The fault in words. -/
def SettingsFault.message : SettingsFault → Bytes
  | .file (.unreadable why) => utf8 "load YAML config: read file: " ++ why.message
  | .file .malformed => utf8 "load YAML config: parse YAML:"
  | .file (.duration key why) => utf8 "apply YAML config: " ++ key ++ utf8 ": " ++ why.message
  | .constraint c => c.message

namespace Settings

/-- The environment with the environment file that the command line names, or the usual one. -/
def environment (files : Files) (env : Environment) (o : Overrides) : Environment :=
  env.withFile files (if o.envFile.isEmpty then utf8 ".env" else o.envFile)

/-- The settings from all layers, before the constraints. -/
def layered (env file cli : Layer) : Settings := ((({} : Settings).under env).under file).under cli

/-- The settings if they satisfy the constraints. -/
def checked (s : Settings) : Except SettingsFault Settings :=
  match s.broken? with
  | some c => .error (.constraint c)
  | none => .ok s

/-- The settings that files, environment and command line add up to. -/
def load (files : Files) (env : Environment) (o : Overrides) : Except SettingsFault Settings := do
  let fileLayer ←
    if o.configFile.isEmpty then pure {}
    else
      match Layer.ofFile files o.configFile with
      | .ok l => pure l
      | .error why => throw (.file why)
  checked (layered (.ofEnvironment (environment files env o)) fileLayer (.ofOverrides o))

/-- Rates are written out from a ten-thousandth up to, not including, a million. -/
def rateLayout : Binary64.Layout := ⟨-4, 6⟩

end Settings
end Scriptlet
