import Scriptlet.Settings

/-!
# Sources: where the value of a setting comes from

Each setting has a kind, a key in settings files, and possibly a flag and a variable. A source
supplies the setting if it says something usable about it, each source in its own way: a flag has to
be neither negative nor empty, an entry of a file need only not be empty, and a variable has to be
well-formed and in its range. The value is that of the first source that supplies one, in the order
flag, file, variable, default; and it has to satisfy the constraint on the setting.

The tables below say this setting by setting, and the layers of settings are shown to agree with
them.
-/

namespace Scriptlet

/-! ## The settings -/

/-- The kinds of settings. -/
inductive SettingKind where
  | truth | count | text | timespan | rate

/-- The values of a kind; times are counted in nanoseconds. -/
abbrev SettingKind.Value : SettingKind → Type
  | .truth => Bool
  | .count => Int64
  | .text => Bytes
  | .timespan => Int64
  | .rate => Binary64

/-- What a settings file holds for a setting: times are given as texts. -/
abbrev SettingKind.Entry : SettingKind → Type
  | .truth => Bool
  | .count => Int64
  | .text => Bytes
  | .timespan => Bytes
  | .rate => Binary64

/-- The settings, by name. -/
inductive Setting where
  | debug | dryRun | time | color | maxSteps | maxCallDepth | logLevel | port
  | playgroundMaxSteps | playgroundMaxCallDepth | runTimeout | maxSourceBytes | cacheSize
  | shutdownGracePeriod | readHeaderTimeout | writeTimeout | idleTimeout | enableRequestLogging
  | rateLimitRps | rateLimitBurst
deriving DecidableEq

namespace Setting

def kind : Setting → SettingKind
  | .debug | .dryRun | .time | .color | .enableRequestLogging => .truth
  | .maxSteps | .maxCallDepth | .playgroundMaxSteps | .playgroundMaxCallDepth => .count
  | .maxSourceBytes | .cacheSize | .rateLimitBurst => .count
  | .logLevel | .port => .text
  | .runTimeout | .shutdownGracePeriod | .readHeaderTimeout | .writeTimeout => .timespan
  | .idleTimeout => .timespan
  | .rateLimitRps => .rate

abbrev Value (x : Setting) : Type := x.kind.Value

end Setting

/-- The value of a setting. -/
def Settings.get (s : Settings) : (x : Setting) → x.Value
  | .debug => s.debug
  | .dryRun => s.dryRun
  | .time => s.time
  | .color => s.color
  | .maxSteps => s.maxSteps
  | .maxCallDepth => s.maxCallDepth
  | .logLevel => s.logLevel
  | .port => s.port
  | .playgroundMaxSteps => s.playgroundMaxSteps
  | .playgroundMaxCallDepth => s.playgroundMaxCallDepth
  | .runTimeout => s.runTimeout
  | .maxSourceBytes => s.maxSourceBytes
  | .cacheSize => s.cacheSize
  | .shutdownGracePeriod => s.shutdownGracePeriod
  | .readHeaderTimeout => s.readHeaderTimeout
  | .writeTimeout => s.writeTimeout
  | .idleTimeout => s.idleTimeout
  | .enableRequestLogging => s.enableRequestLogging
  | .rateLimitRps => s.rateLimitRps
  | .rateLimitBurst => s.rateLimitBurst

/-- What a layer says about a setting. -/
def Layer.get? (l : Layer) : (x : Setting) → Option x.Value
  | .debug => l.debug
  | .dryRun => l.dryRun
  | .time => l.time
  | .color => l.color
  | .maxSteps => l.maxSteps
  | .maxCallDepth => l.maxCallDepth
  | .logLevel => l.logLevel
  | .port => l.port
  | .playgroundMaxSteps => l.playgroundMaxSteps
  | .playgroundMaxCallDepth => l.playgroundMaxCallDepth
  | .runTimeout => l.runTimeout
  | .maxSourceBytes => l.maxSourceBytes
  | .cacheSize => l.cacheSize
  | .shutdownGracePeriod => l.shutdownGracePeriod
  | .readHeaderTimeout => l.readHeaderTimeout
  | .writeTimeout => l.writeTimeout
  | .idleTimeout => l.idleTimeout
  | .enableRequestLogging => l.enableRequestLogging
  | .rateLimitRps => l.rateLimitRps
  | .rateLimitBurst => l.rateLimitBurst

/-- Of the layers that speak about a setting, the highest one counts. -/
theorem Settings.get_layered (env file cli : Layer) (x : Setting) :
    (Settings.layered env file cli).get x =
      (cli.get? x).getD ((file.get? x).getD ((env.get? x).getD (({} : Settings).get x))) := by
  cases x <;> rfl

/-! ## The command line -/

/-- The flag for a setting, if it was given. -/
def Overrides.flag? (o : Overrides) : (x : Setting) → Option x.Value
  | .debug => o.debug
  | .dryRun => o.dryRun
  | .time => o.time
  | .color => o.color
  | .maxSteps => o.maxSteps
  | .logLevel => o.logLevel
  | .port => o.port
  | .rateLimitRps => o.rateLimitRps
  | .rateLimitBurst => o.rateLimitBurst
  | .maxCallDepth | .playgroundMaxSteps | .playgroundMaxCallDepth => none
  | .maxSourceBytes | .cacheSize => none
  | .runTimeout | .shutdownGracePeriod | .readHeaderTimeout | .writeTimeout | .idleTimeout => none
  | .enableRequestLogging => none

/-- A flag can be used: it is neither negative nor empty. -/
def SettingKind.Usable : (k : SettingKind) → k.Value → Prop
  | .truth, _ => True
  | .count, n => 0 ≤ n
  | .text, s => s ≠ []
  | .timespan, _ => True
  | .rate, r => r.isAtLeastZero = true

/-- The command line supplies the value. -/
def Overrides.Gives (o : Overrides) (x : Setting) (v : x.Value) : Prop :=
  o.flag? x = some v ∧ x.kind.Usable v

/-- The test for a text that says something. -/
theorem not_isEmpty_iff {s : Bytes} : (!s.isEmpty) = true ↔ s ≠ [] := by
  rw [Bool.not_eq_true', Bool.eq_false_iff, ne_eq, List.isEmpty_iff]

theorem Overrides.gives_iff {o : Overrides} {x : Setting} {v : x.Value} :
    o.Gives x v ↔ (Layer.ofOverrides o).get? x = some v := by
  have hfilter {α : Type} {p : α → Bool} {P : α → Prop} (hp : ∀ a, p a = true ↔ P a)
      (f : Option α) (a : α) : f = some a ∧ P a ↔ f.filter p = some a := by
    rw [Option.filter_eq_some_iff, hp]
  cases x with
  | debug | dryRun | time | color => exact and_iff_left trivial
  | maxSteps | rateLimitBurst =>
    exact hfilter (fun (n : Int64) => decide_eq_true_iff (p := 0 ≤ n)) _ v
  | logLevel | port => exact hfilter (fun s => not_isEmpty_iff (s := s)) _ v
  | rateLimitRps => exact hfilter (fun _ => Iff.rfl) _ v
  | maxCallDepth | playgroundMaxSteps | playgroundMaxCallDepth | maxSourceBytes | cacheSize
  | runTimeout | shutdownGracePeriod | readHeaderTimeout | writeTimeout | idleTimeout
  | enableRequestLogging => exact ⟨fun h => (nomatch h.1), fun h => nomatch h⟩

/-! ## The environment -/

namespace Setting

/-- The variable for a setting. -/
def variableName? : Setting → Option Bytes
  | .debug => some (utf8 "OXIDO_DEBUG")
  | .dryRun => some (utf8 "OXIDO_DRY_RUN")
  | .time => some (utf8 "OXIDO_TIME")
  | .color => some (utf8 "OXIDO_COLOR")
  | .maxSteps => some (utf8 "OXIDO_MAX_STEPS")
  | .maxCallDepth => some (utf8 "OXIDO_MAX_CALL_DEPTH")
  | .logLevel => some (utf8 "OXIDO_LOG_LEVEL")
  | .port => some (utf8 "PORT")
  | .playgroundMaxSteps => some (utf8 "OXIDO_PLAYGROUND_MAX_STEPS")
  | .playgroundMaxCallDepth => some (utf8 "OXIDO_PLAYGROUND_MAX_CALL_DEPTH")
  | .runTimeout => some (utf8 "OXIDO_RUN_TIMEOUT")
  | .maxSourceBytes => some (utf8 "OXIDO_MAX_SOURCE_BYTES")
  | .cacheSize => some (utf8 "OXIDO_CACHE_SIZE")
  | .rateLimitRps => some (utf8 "RATE_LIMIT_RPS")
  | .rateLimitBurst => some (utf8 "RATE_LIMIT_BURST")
  | .shutdownGracePeriod | .readHeaderTimeout | .writeTimeout | .idleTimeout => none
  | .enableRequestLogging => none

/-- The range that the variable for a setting admits. -/
def InRange : (x : Setting) → x.Value → Prop
  | .maxSteps, n | .rateLimitBurst, n => (0 : Int64) ≤ n
  | .maxCallDepth, n | .playgroundMaxSteps, n | .playgroundMaxCallDepth, n => (0 : Int64) < n
  | .maxSourceBytes, n | .cacheSize, n | .runTimeout, n => (0 : Int64) < n
  | .rateLimitRps, r => Binary64.isAtLeastZero r = true
  | .debug, _ | .dryRun, _ | .time, _ | .color, _ | .enableRequestLogging, _ => True
  | .logLevel, _ | .port, _ => True
  | .shutdownGracePeriod, _ | .readHeaderTimeout, _ | .writeTimeout, _ | .idleTimeout, _ => True

end Setting

/-- The text is well-formed for its kind, and stands for the value. -/
def SettingKind.Reads : (k : SettingKind) → Bytes → k.Value → Prop
  | .truth, t, b => readTruth? t = some b
  | .count, t, n => readInt64 t = .ok n
  | .text, t, s => t ≠ [] ∧ s = t
  | .timespan, t, d => Duration.read t = .ok d
  | .rate, t, r => Binary64.read t = .ok r

namespace Environment

/-- The variable for the setting supplies the value, in its text without the blanks around it. A
variable that is not there is like an empty one. -/
def Says (env : Environment) (x : Setting) (v : x.Value) : Prop :=
  ∃ name, x.variableName? = some name ∧
    x.kind.Reads (trimBlanks ((env.get? name).getD [])) v ∧ x.InRange v

/-- The environment supplies the value. Colours are off if `NO_COLOR` is there at all. -/
def Gives (env : Environment) : (x : Setting) → x.Value → Prop
  | .color, b => if (env.get? (utf8 "NO_COLOR")).isSome then b = false else env.Says .color b
  | x, v => env.Says x v

theorem says_iff {env : Environment} {x : Setting} {v : x.Value} {name : Bytes}
    (h : x.variableName? = some name) :
    env.Says x v ↔ x.kind.Reads (env.trimmed name) v ∧ x.InRange v := by
  constructor
  · rintro ⟨name', hname', hsays⟩
    cases h.symm.trans hname'
    exact hsays
  · exact fun hsays => ⟨name, h, hsays⟩

theorem says_nothing {env : Environment} {x : Setting} (h : x.variableName? = none) (v : x.Value) :
    ¬ env.Says x v := by
  rintro ⟨name, hname, -⟩
  cases h.symm.trans hname

theorem text?_eq_some_iff {env : Environment} {name : String} {s : Bytes} :
    env.text? name = some s ↔
      (env.trimmed (utf8 name) ≠ [] ∧ s = env.trimmed (utf8 name)) ∧ True := by
  unfold text?
  cases env.trimmed (utf8 name) with
  | nil => exact ⟨nofun, fun h => absurd rfl h.1.1⟩
  | cons b rest =>
    exact ⟨fun h => ⟨⟨nofun, (Option.some.inj h).symm⟩, trivial⟩, fun h => congrArg some h.1.2.symm⟩

/-- What was read is used if it satisfies a condition. -/
theorem used_eq_some_iff {α ε : Type} {P : α → Prop} [DecidablePred P] {a b : α} :
    (if P b then some b else none) = some a ↔ (.ok b : Except ε α) = .ok a ∧ P a := by
  by_cases hb : P b
  · rw [if_pos hb]
    constructor
    · intro h
      cases h
      exact ⟨rfl, hb⟩
    · rintro ⟨h, -⟩
      cases h
      rfl
  · rw [if_neg hb]
    constructor
    · nofun
    · rintro ⟨h, ha⟩
      cases h
      exact absurd ha hb

theorem atLeast?_eq_some_iff {env : Environment} {least n : Int64} {name : String} :
    env.atLeast? least name = some n ↔
      readInt64 (env.trimmed (utf8 name)) = .ok n ∧ least ≤ n := by
  unfold atLeast?
  cases readInt64 (env.trimmed (utf8 name)) with
  | error e => exact ⟨nofun, fun h => nomatch h.1⟩
  | ok m => exact used_eq_some_iff

theorem duration?_eq_some_iff {env : Environment} {d : Int64} {name : String} :
    env.duration? name = some d ↔ Duration.read (env.trimmed (utf8 name)) = .ok d ∧ 0 < d := by
  unfold duration?
  cases Duration.read (env.trimmed (utf8 name)) with
  | error e => exact ⟨nofun, fun h => nomatch h.1⟩
  | ok m => exact used_eq_some_iff

theorem rate?_eq_some_iff {env : Environment} {r : Binary64} {name : String} :
    env.rate? name = some r ↔
      Binary64.read (env.trimmed (utf8 name)) = .ok r ∧ r.isAtLeastZero = true := by
  unfold rate?
  cases Binary64.read (env.trimmed (utf8 name)) with
  | error e => exact ⟨nofun, fun h => nomatch h.1⟩
  | ok m => exact used_eq_some_iff (P := (Binary64.isAtLeastZero · = true))

theorem one_le_iff_pos {n : Int64} : 1 ≤ n ↔ 0 < n := by
  have hone : (1 : Int64).toInt = (0 : Int64).toInt + 1 := by decide
  rw [Int64.le_iff_toInt_le, Int64.lt_iff_toInt_lt, hone]
  exact Int.add_one_le_iff

theorem gives_iff {env : Environment} {x : Setting} {v : x.Value} :
    env.Gives x v ↔ (Layer.ofEnvironment env).get? x = some v := by
  cases x with
  | debug | dryRun | time =>
    dsimp only [Gives, Layer.get?, Layer.ofEnvironment]
    exact (says_iff rfl).trans (and_iff_left trivial)
  | color =>
    dsimp only [Gives, Layer.get?, Layer.ofEnvironment]
    by_cases hno : (env.get? (utf8 "NO_COLOR")).isSome
    · rw [if_pos hno, if_pos hno]
      exact ⟨fun h => congrArg some h.symm, fun h => (Option.some.inj h).symm⟩
    · rw [if_neg hno, if_neg hno]
      exact (says_iff rfl).trans (and_iff_left trivial)
  | logLevel | port =>
    dsimp only [Gives, Layer.get?, Layer.ofEnvironment]
    exact (says_iff rfl).trans text?_eq_some_iff.symm
  | maxSteps | rateLimitBurst =>
    dsimp only [Gives, Layer.get?, Layer.ofEnvironment]
    exact (says_iff rfl).trans atLeast?_eq_some_iff.symm
  | maxCallDepth | playgroundMaxSteps | playgroundMaxCallDepth | maxSourceBytes | cacheSize =>
    dsimp only [Gives, Layer.get?, Layer.ofEnvironment]
    refine (says_iff rfl).trans (Iff.trans ?_ atLeast?_eq_some_iff.symm)
    exact and_congr_right fun _ => one_le_iff_pos.symm
  | runTimeout =>
    dsimp only [Gives, Layer.get?, Layer.ofEnvironment]
    exact (says_iff rfl).trans duration?_eq_some_iff.symm
  | rateLimitRps =>
    dsimp only [Gives, Layer.get?, Layer.ofEnvironment]
    exact (says_iff rfl).trans rate?_eq_some_iff.symm
  | shutdownGracePeriod | readHeaderTimeout | writeTimeout | idleTimeout
  | enableRequestLogging => exact ⟨fun h => absurd h (says_nothing rfl v), fun h => nomatch h⟩

end Environment

/-! ## Settings files -/

namespace Setting

/-- The key of a setting in a settings file. -/
def key : Setting → String
  | .debug => "debug"
  | .dryRun => "dry_run"
  | .time => "time"
  | .color => "color"
  | .maxSteps => "max_steps"
  | .maxCallDepth => "max_call_depth"
  | .logLevel => "log_level"
  | .port => "port"
  | .playgroundMaxSteps => "playground_max_steps"
  | .playgroundMaxCallDepth => "playground_max_call_depth"
  | .runTimeout => "run_timeout"
  | .maxSourceBytes => "max_source_bytes"
  | .cacheSize => "cache_size"
  | .shutdownGracePeriod => "shutdown_grace_period"
  | .readHeaderTimeout => "read_header_timeout"
  | .writeTimeout => "write_timeout"
  | .idleTimeout => "idle_timeout"
  | .enableRequestLogging => "enable_request_logging"
  | .rateLimitRps => "rps"
  | .rateLimitBurst => "burst"

/-- The setting has its key in the section on rates. -/
def inRates : Setting → Bool
  | .rateLimitRps | .rateLimitBurst => true
  | _ => false

end Setting

/-- The entries of a settings file, setting by setting. -/
abbrev SettingsFile : Type := (x : Setting) → Option x.kind.Entry

namespace SettingKind

/-- What the entry stands for; an empty text stands for nothing. -/
def Means : (k : SettingKind) → k.Entry → k.Value → Prop
  | .truth, entry, b => b = entry
  | .count, entry, n => n = entry
  | .text, entry, s => entry ≠ [] ∧ s = entry
  | .timespan, entry, d => entry ≠ [] ∧ Duration.read entry = .ok d
  | .rate, entry, r => r = entry

/-- The entry is a duration that cannot be read. -/
def Malformed : (k : SettingKind) → k.Entry → Prop
  | .timespan, entry => entry ≠ [] ∧ ∃ why, Duration.read entry = .error why
  | .truth, _ | .count, _ | .text, _ | .rate, _ => False

end SettingKind

/-- The settings file supplies the value. -/
def SettingsFile.Gives (file : SettingsFile) (x : Setting) (v : x.Value) : Prop :=
  ∃ entry, file x = some entry ∧ x.kind.Means entry v

/-- The settings file holds a duration that cannot be read. -/
def SettingsFile.Malformed (file : SettingsFile) (x : Setting) : Prop :=
  ∃ entry, file x = some entry ∧ x.kind.Malformed entry

namespace Document

/-- The entry under a key, which has to be of the kind. -/
def entry (d : Document) (fs : Section) (key : String) :
    (k : SettingKind) → Except FileFault (Option k.Entry)
  | .truth => d.truth fs key
  | .count => d.integer fs key
  | .text | .timespan => d.optional (fun _ text => some text) fs key
  | .rate => d.number fs key

/-- The document is a settings file with these entries. -/
def Decodes (d : Document) (file : SettingsFile) : Prop :=
  ∃ fs rates, d.fields settingNames (d.root.map fun node => { node }) = .ok fs ∧
    d.fields rateNames (fs.lookup (utf8 "rate_limit")) = .ok rates ∧
      ∀ x : Setting, d.entry (if x.inRates then rates else fs) x.key x.kind = .ok (file x)

end Document

/-- The file at the path can be read and decoded, and has these entries. -/
def Files.HaveSettings (files : Files) (path : Bytes) (file : SettingsFile) : Prop :=
  ∃ contents d, files.read path = .ok contents ∧ Document.read? contents = some d ∧ d.Decodes file

/-! ## Constraints -/

/-- The constraint on a setting. -/
def Setting.Admits : (x : Setting) → x.Value → Prop
  | .rateLimitRps, r => Binary64.isBelowZero r = false
  | .maxSteps, n | .rateLimitBurst, n => (0 : Int64) ≤ n
  | .maxCallDepth, n | .playgroundMaxSteps, n | .playgroundMaxCallDepth, n => (0 : Int64) < n
  | .maxSourceBytes, n | .cacheSize, n | .runTimeout, n => (0 : Int64) < n
  | .logLevel, s => foldCase s ∈ Settings.logLevels
  | .debug, _ | .dryRun, _ | .time, _ | .color, _ | .enableRequestLogging, _ => True
  | .port, _ => True
  | .shutdownGracePeriod, _ | .readHeaderTimeout, _ | .writeTimeout, _ | .idleTimeout, _ => True

theorem Settings.broken?_eq_none_iff {s : Settings} :
    s.broken? = none ↔ ∀ x : Setting, x.Admits (s.get x) := by
  have hnext {p : Prop} [Decidable p] {c : Constraint} {rest : Option Constraint} :
      (if p then some c else rest) = none ↔ ¬ p ∧ rest = none := by
    by_cases hp : p
    · rw [if_pos hp]
      exact ⟨nofun, fun h => absurd hp h.1⟩
    · rw [if_neg hp]
      exact (and_iff_right hp).symm
  simp only [broken?, hnext, Int64.not_lt, Int64.not_le, Bool.not_eq_true, Bool.not_eq_false',
    List.contains_iff_mem, and_true]
  constructor
  · rintro ⟨hrps, hburst, hsteps, hdepth, hplayground, hcalls, hbytes, hcache, htimeout, hlevel⟩ x
    cases x with
    | rateLimitRps => exact hrps
    | rateLimitBurst => exact hburst
    | maxSteps => exact hsteps
    | maxCallDepth => exact hdepth
    | playgroundMaxSteps => exact hplayground
    | playgroundMaxCallDepth => exact hcalls
    | maxSourceBytes => exact hbytes
    | cacheSize => exact hcache
    | runTimeout => exact htimeout
    | logLevel => exact hlevel
    | debug | dryRun | time | color | enableRequestLogging | port => trivial
    | shutdownGracePeriod | readHeaderTimeout | writeTimeout | idleTimeout => trivial
  · intro h
    exact ⟨h .rateLimitRps, h .rateLimitBurst, h .maxSteps, h .maxCallDepth, h .playgroundMaxSteps,
      h .playgroundMaxCallDepth, h .maxSourceBytes, h .cacheSize, h .runTimeout, h .logLevel⟩

end Scriptlet
