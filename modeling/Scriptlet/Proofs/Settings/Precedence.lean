import Mathlib.Tactic.Common
import Scriptlet.Proofs.Settings.Sources

/-!
# Precedence: settings are loaded in the order of their sources

A settings file is first decoded as a whole; then each entry leaves its setting the value that it
stands for. Loading succeeds exactly if the file can be decoded, no duration in it is malformed, and
the value of every setting from the first source that supplies one is admitted. What a lower source
says is not looked at then, durations in the file apart, and nothing said about one setting matters
to another.
-/

namespace Scriptlet

/-! ## Reading a settings file -/

theorem except_bind_eq_ok_iff {ε α β : Type} {x : Except ε α} {f : α → Except ε β} {b : β} :
    (x >>= f) = .ok b ↔ ∃ a, x = .ok a ∧ f a = .ok b := by
  cases x with
  | error e => exact ⟨nofun, fun ⟨_, h, _⟩ => nomatch h⟩
  | ok a =>
    constructor
    · exact fun h => ⟨a, rfl, h⟩
    · rintro ⟨a', h, hb⟩
      cases h
      exact hb

theorem except_map_eq_ok_iff {ε α β : Type} {x : Except ε α} {f : α → β} {b : β} :
    x.map f = .ok b ↔ ∃ a, x = .ok a ∧ b = f a := by
  cases x with
  | error e => exact ⟨nofun, fun ⟨_, h, _⟩ => nomatch h⟩
  | ok a =>
    constructor
    · exact fun h => ⟨a, rfl, (Except.ok.inj h).symm⟩
    · rintro ⟨a', h, rfl⟩
      cases h
      rfl

namespace SettingKind

/-- What an entry leaves of its setting: the value it stands for, if any. The key is named if it is
a duration that cannot be read. -/
def leave (key : String) : (k : SettingKind) → Option k.Entry → Except FileFault (Option k.Value)
  | .truth, entry => .ok entry
  | .count, entry => .ok entry
  | .text, entry => .ok (entry.filter (!·.isEmpty))
  | .timespan, entry => Document.timespan key (entry.filter (!·.isEmpty))
  | .rate, entry => .ok entry

/-- Two ways to say which value there is agree if the values do. -/
theorem ok_eq_ok_iff {α : Type} {P : α → Prop} {Q : Prop} {o value : Option α}
    (hP : ∀ v, P v ↔ o = some v) (hQ : ¬ Q) :
    (.ok o : Except FileFault (Option α)) = .ok value ↔ (∀ v, P v ↔ value = some v) ∧ ¬ Q := by
  constructor
  · rintro ⟨⟩
    exact ⟨hP, hQ⟩
  · rintro ⟨h, -⟩
    exact congrArg Except.ok (Option.ext fun v => (hP v).symm.trans (h v))

/-- An entry that is not malformed leaves what it stands for. -/
theorem leave_eq_ok_iff {key : String} {k : SettingKind} {entry : Option k.Entry}
    {value : Option k.Value} :
    leave key k entry = .ok value ↔
      (∀ v, (∃ e, entry = some e ∧ k.Means e v) ↔ value = some v) ∧
        ¬ ∃ e, entry = some e ∧ k.Malformed e := by
  cases k with
  | truth | count | rate =>
    refine ok_eq_ok_iff (fun v => ?_) fun ⟨_, _, h⟩ => h
    exact ⟨fun ⟨e, he, hv⟩ => hv ▸ he, fun h => ⟨v, h, rfl⟩⟩
  | text =>
    refine ok_eq_ok_iff (fun v => ?_) fun ⟨_, _, h⟩ => h
    rw [Option.filter_eq_some_iff, not_isEmpty_iff]
    constructor
    · rintro ⟨e, he, hne, rfl⟩
      exact ⟨he, hne⟩
    · rintro ⟨he, hne⟩
      exact ⟨v, he, hne, rfl⟩
  | timespan =>
    change Document.timespan key (entry.filter (!·.isEmpty)) = .ok value ↔ _
    cases hfilled : entry.filter (!·.isEmpty) with
    | none =>
      have hempty (e : Bytes) (he : entry = some e) (hne : e ≠ []) : False :=
        Option.filter_eq_none_iff.mp hfilled e he (not_isEmpty_iff.mpr hne)
      refine ok_eq_ok_iff (fun v => ⟨?_, nofun⟩) ?_
      · rintro ⟨e, he, hne, -⟩
        exact (hempty e he hne).elim
      · rintro ⟨e, he, hne, -⟩
        exact hempty e he hne
    | some s =>
      obtain ⟨rfl, hs⟩ := Option.filter_eq_some_iff.mp hfilled
      rw [not_isEmpty_iff] at hs
      simp only [Document.timespan]
      cases hread : Duration.read s with
      | error why => exact ⟨nofun, fun h => absurd ⟨s, rfl, hs, why, hread⟩ h.2⟩
      | ok d =>
        refine ok_eq_ok_iff (fun v => ?_) ?_
        · constructor
          · rintro ⟨e, ⟨⟩, -, h⟩
            exact congrArg some (Except.ok.inj (hread.symm.trans h))
          · rintro ⟨⟩
            exact ⟨s, rfl, hs, hread⟩
        · rintro ⟨e, ⟨⟩, -, why, hwhy⟩
          cases hread.symm.trans hwhy

end SettingKind

namespace Document

variable {d : Document} {fs : Section}

/-- What a section supplies for a setting. -/
def Supplies (d : Document) (fs : Section) (x : Setting) (value : Option x.Value) : Prop :=
  ∃ entry, d.entry fs x.key x.kind = .ok entry ∧ x.kind.leave x.key entry = .ok value

/-- An entry that is left as it is. -/
theorem exists_ok_and_ok_iff {α : Type} {found : Except FileFault α} {value : α} :
    (∃ entry, found = .ok entry ∧ (.ok entry : Except FileFault α) = .ok value) ↔
      found = .ok value := by
  constructor
  · rintro ⟨entry, h, ⟨⟩⟩
    exact h
  · exact fun h => ⟨value, h, rfl⟩

theorem text_eq_ok_iff {key : String} {value : Option Bytes} :
    d.text fs key = .ok value ↔
      ∃ entry, d.entry fs key .text = .ok entry ∧
        SettingKind.leave key .text entry = .ok value := by
  refine except_map_eq_ok_iff.trans (exists_congr fun entry => and_congr_right fun _ => ?_)
  exact ⟨fun h => congrArg Except.ok h.symm, fun h => (Except.ok.inj h).symm⟩

theorem exists_text_and_timespan_iff {key : String} {value : Option Int64} :
    (∃ s, d.text fs key = .ok s ∧ timespan key s = .ok value) ↔
      ∃ entry, d.entry fs key .timespan = .ok entry ∧
        SettingKind.leave key .timespan entry = .ok value := by
  constructor
  · rintro ⟨s, hs, hvalue⟩
    obtain ⟨entry, hentry, rfl⟩ := except_map_eq_ok_iff.mp hs
    exact ⟨entry, hentry, hvalue⟩
  · rintro ⟨entry, hentry, hvalue⟩
    exact ⟨_, except_map_eq_ok_iff.mpr ⟨entry, hentry, rfl⟩, hvalue⟩

end Document

open Document in
/-- A document is a layer if each of its entries leaves what the layer says. -/
theorem Layer.ofDocument_eq_ok_iff {d : Document} {l : Layer} :
    Layer.ofDocument d = .ok l ↔
      ∃ fs rates, d.fields settingNames (d.root.map fun node => { node }) = .ok fs ∧
        d.fields rateNames (fs.lookup (utf8 "rate_limit")) = .ok rates ∧
          ∀ x : Setting, d.Supplies (if x.inRates then rates else fs) x (l.get? x) := by
  simp only [ofDocument, except_bind_eq_ok_iff]
  constructor
  · rintro ⟨fs, hfs, debug, hdebug, dryRun, hdryRun, time, htime, color, hcolor, h⟩
    obtain ⟨maxSteps, hmaxSteps, maxCallDepth, hmaxCallDepth, logLevel, hlogLevel, h⟩ := h
    obtain ⟨playgroundMaxSteps, hplaygroundMaxSteps, h⟩ := h
    obtain ⟨playgroundMaxCallDepth, hplaygroundMaxCallDepth, port, hport, run, hrun, h⟩ := h
    obtain ⟨maxSourceBytes, hmaxSourceBytes, cacheSize, hcacheSize, grace, hgrace, h⟩ := h
    obtain ⟨readHeader, hreadHeader, write, hwrite, idle, hidle, h⟩ := h
    obtain ⟨enableRequestLogging, henableRequestLogging, rates, hrates, h⟩ := h
    obtain ⟨rateLimitRps, hrateLimitRps, rateLimitBurst, hrateLimitBurst, h⟩ := h
    obtain ⟨runTimeout, hrunTimeout, shutdownGracePeriod, hshutdownGracePeriod, h⟩ := h
    obtain ⟨readHeaderTimeout, hreadHeaderTimeout, writeTimeout, hwriteTimeout, h⟩ := h
    obtain ⟨idleTimeout, hidleTimeout, hl⟩ := h
    obtain rfl := Except.ok.inj hl
    refine ⟨fs, rates, hfs, hrates, fun x => ?_⟩
    cases x with
    | debug => exact exists_ok_and_ok_iff.mpr hdebug
    | dryRun => exact exists_ok_and_ok_iff.mpr hdryRun
    | time => exact exists_ok_and_ok_iff.mpr htime
    | color => exact exists_ok_and_ok_iff.mpr hcolor
    | maxSteps => exact exists_ok_and_ok_iff.mpr hmaxSteps
    | maxCallDepth => exact exists_ok_and_ok_iff.mpr hmaxCallDepth
    | logLevel => exact text_eq_ok_iff.mp hlogLevel
    | port => exact text_eq_ok_iff.mp hport
    | playgroundMaxSteps => exact exists_ok_and_ok_iff.mpr hplaygroundMaxSteps
    | playgroundMaxCallDepth => exact exists_ok_and_ok_iff.mpr hplaygroundMaxCallDepth
    | runTimeout => exact exists_text_and_timespan_iff.mp ⟨run, hrun, hrunTimeout⟩
    | maxSourceBytes => exact exists_ok_and_ok_iff.mpr hmaxSourceBytes
    | cacheSize => exact exists_ok_and_ok_iff.mpr hcacheSize
    | shutdownGracePeriod =>
      exact exists_text_and_timespan_iff.mp ⟨grace, hgrace, hshutdownGracePeriod⟩
    | readHeaderTimeout =>
      exact exists_text_and_timespan_iff.mp ⟨readHeader, hreadHeader, hreadHeaderTimeout⟩
    | writeTimeout => exact exists_text_and_timespan_iff.mp ⟨write, hwrite, hwriteTimeout⟩
    | idleTimeout => exact exists_text_and_timespan_iff.mp ⟨idle, hidle, hidleTimeout⟩
    | enableRequestLogging => exact exists_ok_and_ok_iff.mpr henableRequestLogging
    | rateLimitRps => exact exists_ok_and_ok_iff.mpr hrateLimitRps
    | rateLimitBurst => exact exists_ok_and_ok_iff.mpr hrateLimitBurst
  · rintro ⟨fs, rates, hfs, hrates, h⟩
    obtain ⟨run, hrun, hrunTimeout⟩ := exists_text_and_timespan_iff.mpr (h .runTimeout)
    obtain ⟨grace, hgrace, hshutdownGracePeriod⟩ :=
      exists_text_and_timespan_iff.mpr (h .shutdownGracePeriod)
    obtain ⟨readHeader, hreadHeader, hreadHeaderTimeout⟩ :=
      exists_text_and_timespan_iff.mpr (h .readHeaderTimeout)
    obtain ⟨write, hwrite, hwriteTimeout⟩ :=
      exists_text_and_timespan_iff.mpr (h .writeTimeout)
    obtain ⟨idle, hidle, hidleTimeout⟩ :=
      exists_text_and_timespan_iff.mpr (h .idleTimeout)
    exact ⟨fs, hfs, l.debug, exists_ok_and_ok_iff.mp (h .debug),
      l.dryRun, exists_ok_and_ok_iff.mp (h .dryRun), l.time, exists_ok_and_ok_iff.mp (h .time),
      l.color, exists_ok_and_ok_iff.mp (h .color),
      l.maxSteps, exists_ok_and_ok_iff.mp (h .maxSteps),
      l.maxCallDepth, exists_ok_and_ok_iff.mp (h .maxCallDepth),
      l.logLevel, text_eq_ok_iff.mpr (h .logLevel),
      l.playgroundMaxSteps, exists_ok_and_ok_iff.mp (h .playgroundMaxSteps),
      l.playgroundMaxCallDepth, exists_ok_and_ok_iff.mp (h .playgroundMaxCallDepth),
      l.port, text_eq_ok_iff.mpr (h .port), run, hrun,
      l.maxSourceBytes, exists_ok_and_ok_iff.mp (h .maxSourceBytes),
      l.cacheSize, exists_ok_and_ok_iff.mp (h .cacheSize), grace, hgrace, readHeader, hreadHeader,
      write, hwrite, idle, hidle,
      l.enableRequestLogging, exists_ok_and_ok_iff.mp (h .enableRequestLogging), rates, hrates,
      l.rateLimitRps, exists_ok_and_ok_iff.mp (h .rateLimitRps),
      l.rateLimitBurst, exists_ok_and_ok_iff.mp (h .rateLimitBurst), l.runTimeout, hrunTimeout,
      l.shutdownGracePeriod, hshutdownGracePeriod, l.readHeaderTimeout, hreadHeaderTimeout,
      l.writeTimeout, hwriteTimeout, l.idleTimeout, hidleTimeout, rfl⟩

/-- The layer with what is said about each setting. -/
def Layer.ofSayings (f : (x : Setting) → Option x.Value) : Layer where
  debug := f .debug
  dryRun := f .dryRun
  time := f .time
  color := f .color
  maxSteps := f .maxSteps
  maxCallDepth := f .maxCallDepth
  logLevel := f .logLevel
  port := f .port
  playgroundMaxSteps := f .playgroundMaxSteps
  playgroundMaxCallDepth := f .playgroundMaxCallDepth
  runTimeout := f .runTimeout
  maxSourceBytes := f .maxSourceBytes
  cacheSize := f .cacheSize
  shutdownGracePeriod := f .shutdownGracePeriod
  readHeaderTimeout := f .readHeaderTimeout
  writeTimeout := f .writeTimeout
  idleTimeout := f .idleTimeout
  enableRequestLogging := f .enableRequestLogging
  rateLimitRps := f .rateLimitRps
  rateLimitBurst := f .rateLimitBurst

theorem Layer.get?_ofSayings (f : (x : Setting) → Option x.Value) (x : Setting) :
    (ofSayings f).get? x = f x := by
  cases x <;> rfl

theorem Layer.ext_get? {l m : Layer} (h : ∀ x, l.get? x = m.get? x) : l = m :=
  congrArg ofSayings (funext h)

theorem SettingKind.Means.unique {k : SettingKind} {entry : k.Entry} {v w : k.Value}
    (hv : k.Means entry v) (hw : k.Means entry w) : v = w := by
  cases k with
  | truth | count | rate => exact Eq.trans hv (Eq.symm hw)
  | text => exact hv.2.trans hw.2.symm
  | timespan => exact Except.ok.inj (hv.2.symm.trans hw.2)

namespace SettingsFile

variable {file : SettingsFile}

/-- The layer says what the settings file supplies. -/
def AmountsTo (file : SettingsFile) (l : Layer) : Prop := ∀ x v, file.Gives x v ↔ l.get? x = some v

theorem Gives.unique {x : Setting} {v w : x.Value} (hv : file.Gives x v) (hw : file.Gives x w) :
    v = w := by
  obtain ⟨entry, hentry, hv⟩ := hv
  obtain ⟨entry', hentry', hw⟩ := hw
  obtain rfl := Option.some.inj (hentry.symm.trans hentry')
  exact hv.unique hw

theorem exists_amountsTo (file : SettingsFile) : ∃ l, file.AmountsTo l := by
  have hsaid (x : Setting) : ∃ said : Option x.Value, ∀ v, file.Gives x v ↔ said = some v := by
    by_cases hx : ∃ v, file.Gives x v
    · obtain ⟨v, hv⟩ := hx
      refine ⟨some v, fun w => ⟨fun hw => congrArg some (hv.unique hw), fun h => ?_⟩⟩
      exact Option.some.inj h ▸ hv
    · exact ⟨none, fun v => ⟨fun hv => absurd ⟨v, hv⟩ hx, nofun⟩⟩
  choose f hf using hsaid
  exact ⟨.ofSayings f, fun x v => (hf x v).trans (by rw [Layer.get?_ofSayings])⟩

theorem AmountsTo.unique {l m : Layer} (hl : file.AmountsTo l) (hm : file.AmountsTo m) : l = m :=
  Layer.ext_get? fun x => Option.ext fun v => (hl x v).symm.trans (hm x v)

theorem amountsTo_empty (h : ∀ x, file x = none) : file.AmountsTo {} := by
  intro x v
  have hempty : ({} : Layer).get? x = none := by cases x <;> rfl
  rw [hempty]
  exact ⟨fun ⟨entry, hentry, _⟩ => (nomatch (h x).symm.trans hentry), nofun⟩

end SettingsFile

/-- A settings file can be used if no duration in it is malformed. -/
theorem Layer.ofDocument_iff_decodes {d : Document} {l : Layer} :
    Layer.ofDocument d = .ok l ↔
      ∃ file : SettingsFile, d.Decodes file ∧ (∀ x, ¬ file.Malformed x) ∧ file.AmountsTo l := by
  rw [ofDocument_eq_ok_iff]
  constructor
  · rintro ⟨fs, rates, hfs, hrates, h⟩
    choose file hentry hleave using h
    refine ⟨file, ⟨fs, rates, hfs, hrates, hentry⟩, fun x => ?_, fun x => ?_⟩
    · exact (SettingKind.leave_eq_ok_iff.mp (hleave x)).2
    · exact (SettingKind.leave_eq_ok_iff.mp (hleave x)).1
  · rintro ⟨file, ⟨fs, rates, hfs, hrates, hentry⟩, hwell, hl⟩
    refine ⟨fs, rates, hfs, hrates, fun x => ⟨file x, hentry x, ?_⟩⟩
    exact SettingKind.leave_eq_ok_iff.mpr ⟨hl x, hwell x⟩

theorem Layer.ofFile_iff_haveSettings {files : Files} {path : Bytes} {l : Layer} :
    Layer.ofFile files path = .ok l ↔
      ∃ file : SettingsFile, files.HaveSettings path file ∧ (∀ x, ¬ file.Malformed x) ∧
        file.AmountsTo l := by
  cases hread : files.read path with
  | error why =>
    simp only [ofFile, hread]
    exact ⟨nofun, fun ⟨_, ⟨_, _, h, _⟩, _⟩ => nomatch hread.symm.trans h⟩
  | ok contents =>
    cases hd : Document.read? contents with
    | none =>
      simp only [ofFile, hread, hd]
      refine ⟨nofun, ?_⟩
      rintro ⟨file, ⟨contents', d, hcontents, hd', -⟩, -⟩
      cases hread.symm.trans hcontents
      cases hd.symm.trans hd'
    | some d =>
      simp only [ofFile, hread, hd]
      refine ofDocument_iff_decodes.trans (exists_congr fun file => and_congr_left fun _ => ?_)
      constructor
      · exact fun hfile => ⟨contents, d, hread, hd, hfile⟩
      · rintro ⟨contents', d', hcontents, hd', hfile⟩
        cases hread.symm.trans hcontents
        cases hd.symm.trans hd'
        exact hfile

/-! ## The order of the sources -/

/-- The value comes from the first source that supplies one. -/
inductive FirstOf {α : Type} : List (α → Prop) → α → Prop where
  | here {source : α → Prop} {rest : List (α → Prop)} {a : α} :
    source a → FirstOf (source :: rest) a
  | later {source : α → Prop} {rest : List (α → Prop)} {a : α} :
    (∀ b, ¬ source b) → FirstOf rest a → FirstOf (source :: rest) a

namespace FirstOf

variable {α : Type} {source : α → Prop} {rest : List (α → Prop)}

theorem cons_iff {a : α} :
    FirstOf (source :: rest) a ↔ source a ∨ (∀ b, ¬ source b) ∧ FirstOf rest a := by
  constructor
  · rintro (h | ⟨hnone, h⟩)
    · exact .inl h
    · exact .inr ⟨hnone, h⟩
  · rintro (h | ⟨hnone, h⟩)
    · exact .here h
    · exact .later hnone h

/-- The last source stands behind all others. -/
theorem last_iff {d a : α} : FirstOf [(· = d)] a ↔ a = d := by
  rw [cons_iff]
  exact or_iff_left fun h => h.1 d rfl

/-- A source that supplies at most one value comes before the value of the rest. -/
theorem cons_iff_eq_getD {said : Option α} {d : α} (hsaid : ∀ a, source a ↔ said = some a)
    (hrest : ∀ a, FirstOf rest a ↔ a = d) (a : α) :
    FirstOf (source :: rest) a ↔ a = said.getD d := by
  rw [cons_iff, hsaid, hrest, forall_congr' fun b => not_congr (hsaid b)]
  cases said with
  | none => exact ⟨fun h => h.elim nofun And.right, fun h => .inr ⟨nofun, h⟩⟩
  | some b =>
    constructor
    · rintro (h | ⟨h, -⟩)
      · exact (Option.some.inj h).symm
      · exact absurd rfl (h b)
    · exact fun h => .inl (congrArg some h.symm)

end FirstOf

/-- What the settings come from. -/
@[ext]
structure Sources where
  flags : Overrides
  file : SettingsFile
  environment : Environment

namespace Sources

/-- The sources that loading goes by: without a path there is no settings file, and the variables
are those that are there and those of the environment file. -/
structure Of (σ : Sources) (files : Files) (env : Environment) (o : Overrides) : Prop where
  flags : σ.flags = o
  noFile : o.configFile = [] → ∀ x, σ.file x = none
  file : o.configFile ≠ [] → files.HaveSettings o.configFile σ.file
  environment : σ.environment = Settings.environment files env o

/-- The sources come to this value for the setting: the flag goes before the settings file, the file
before the variable, and the variable before the default. -/
def Resolves (σ : Sources) (x : Setting) : x.Value → Prop :=
  FirstOf [σ.flags.Gives x, σ.file.Gives x, σ.environment.Gives x, (· = ({} : Settings).get x)]

variable {σ : Sources}

/-- The value that the sources come to is that of the layers. -/
theorem resolves_iff {l : Layer} (hl : σ.file.AmountsTo l) {x : Setting} {v : x.Value} :
    σ.Resolves x v ↔
      v = (Settings.layered (.ofEnvironment σ.environment) l (.ofOverrides σ.flags)).get x := by
  rw [Settings.get_layered]
  refine FirstOf.cons_iff_eq_getD (fun _ => Overrides.gives_iff) ?_ v
  refine FirstOf.cons_iff_eq_getD (hl x) ?_
  refine FirstOf.cons_iff_eq_getD (fun _ => Environment.gives_iff) ?_
  exact fun _ => FirstOf.last_iff

end Sources

theorem Document.Decodes.unique {d : Document} {file file' : SettingsFile} (h : d.Decodes file)
    (h' : d.Decodes file') : file = file' := by
  obtain ⟨fs, rates, hfs, hrates, hentry⟩ := h
  obtain ⟨fs', rates', hfs', hrates', hentry'⟩ := h'
  obtain rfl := Except.ok.inj (hfs.symm.trans hfs')
  obtain rfl := Except.ok.inj (hrates.symm.trans hrates')
  exact funext fun x => Except.ok.inj ((hentry x).symm.trans (hentry' x))

theorem Files.HaveSettings.unique {files : Files} {path : Bytes} {file file' : SettingsFile}
    (h : files.HaveSettings path file) (h' : files.HaveSettings path file') : file = file' := by
  obtain ⟨contents, d, hcontents, hd, hfile⟩ := h
  obtain ⟨contents', d', hcontents', hd', hfile'⟩ := h'
  obtain rfl := Except.ok.inj (hcontents.symm.trans hcontents')
  obtain rfl := Option.some.inj (hd.symm.trans hd')
  exact hfile.unique hfile'

theorem Sources.Of.unique {σ τ : Sources} {files : Files} {env : Environment} {o : Overrides}
    (hσ : σ.Of files env o) (hτ : τ.Of files env o) : σ = τ := by
  have hfile : σ.file = τ.file := by
    by_cases hpath : o.configFile = []
    · exact funext fun x => (hσ.noFile hpath x).trans (hτ.noFile hpath x).symm
    · exact (hσ.file hpath).unique (hτ.file hpath)
  exact Sources.ext (hσ.flags.trans hτ.flags.symm) hfile (hσ.environment.trans hτ.environment.symm)

theorem Sources.exists_of {files : Files} {env : Environment} {o : Overrides}
    (h : ¬ (o.configFile ≠ [] ∧ ¬ ∃ file, files.HaveSettings o.configFile file)) :
    ∃ σ : Sources, σ.Of files env o := by
  by_cases hpath : o.configFile = []
  · exact ⟨⟨o, fun _ => none, Settings.environment files env o⟩, rfl, fun _ _ => rfl,
      fun h => absurd hpath h, rfl⟩
  · obtain ⟨file, hfile⟩ := not_not.mp fun hfile => h ⟨hpath, hfile⟩
    exact ⟨⟨o, file, Settings.environment files env o⟩, rfl, fun h => absurd h hpath,
      fun _ => hfile, rfl⟩

/-! ## Loading -/

namespace Settings

variable {files : Files} {env : Environment} {o : Overrides}

theorem checked_eq_ok_iff {s t : Settings} :
    s.checked = .ok t ↔ t = s ∧ ∀ x : Setting, x.Admits (t.get x) := by
  have hok : s.checked = .ok t ↔ t = s ∧ s.broken? = none := by
    unfold checked
    cases s.broken? with
    | some c => exact ⟨nofun, fun h => nomatch h.2⟩
    | none => exact ⟨fun h => ⟨(Except.ok.inj h).symm, rfl⟩, fun h => congrArg Except.ok h.1.symm⟩
  rw [hok, broken?_eq_none_iff]
  constructor
  · rintro ⟨rfl, h⟩
    exact ⟨rfl, h⟩
  · rintro ⟨rfl, h⟩
    exact ⟨rfl, h⟩

theorem load_of_nil (hpath : o.configFile = []) :
    load files env o =
      (layered (.ofEnvironment (environment files env o)) {} (.ofOverrides o)).checked := by
  simp only [load, hpath]
  rfl

theorem load_of_ok {l : Layer} (hpath : o.configFile ≠ [])
    (hl : Layer.ofFile files o.configFile = .ok l) :
    load files env o =
      (layered (.ofEnvironment (environment files env o)) l (.ofOverrides o)).checked := by
  simp only [load, hl, List.isEmpty_iff, if_neg hpath]
  rfl

theorem load_of_error {why : FileFault} (hpath : o.configFile ≠ [])
    (hwhy : Layer.ofFile files o.configFile = .error why) :
    load files env o = .error (.file why) := by
  simp only [load, hwhy, List.isEmpty_iff, if_neg hpath]
  rfl

/-- Loading succeeds with the layers of the sources, if no duration in the settings file is
malformed and every value is admitted. -/
theorem load_eq_ok_iff {s : Settings} :
    load files env o = .ok s ↔
      ∃ (σ : Sources) (l : Layer), σ.Of files env o ∧ (∀ x, ¬ σ.file.Malformed x) ∧
        σ.file.AmountsTo l ∧
        s = layered (.ofEnvironment σ.environment) l (.ofOverrides σ.flags) ∧
        ∀ x : Setting, x.Admits (s.get x) := by
  by_cases hpath : o.configFile = []
  · rw [load_of_nil hpath, checked_eq_ok_iff]
    constructor
    · rintro ⟨hs, hadmits⟩
      refine ⟨⟨o, fun _ => none, environment files env o⟩, {}, ⟨rfl, fun _ _ => rfl, ?_, rfl⟩, ?_,
        ?_, hs, hadmits⟩
      · exact fun h => absurd hpath h
      · exact fun x ⟨_, h, _⟩ => nomatch h
      · exact SettingsFile.amountsTo_empty fun _ => rfl
    · rintro ⟨σ, l, hσ, -, hl, hs, hadmits⟩
      obtain rfl := hl.unique (SettingsFile.amountsTo_empty (hσ.noFile hpath))
      rw [hσ.flags, hσ.environment] at hs
      exact ⟨hs, hadmits⟩
  · cases hread : Layer.ofFile files o.configFile with
    | error why =>
      rw [load_of_error hpath hread]
      refine ⟨nofun, ?_⟩
      rintro ⟨σ, l, hσ, hwell, hl, -⟩
      cases hread.symm.trans (Layer.ofFile_iff_haveSettings.mpr ⟨σ.file, hσ.file hpath, hwell, hl⟩)
    | ok l =>
      rw [load_of_ok hpath hread, checked_eq_ok_iff]
      constructor
      · rintro ⟨hs, hadmits⟩
        obtain ⟨file, hfile, hwell, hl⟩ := Layer.ofFile_iff_haveSettings.mp hread
        refine ⟨⟨o, file, environment files env o⟩, l, ⟨rfl, ?_, fun _ => hfile, rfl⟩, hwell, hl,
          hs, hadmits⟩
        exact fun h => absurd h hpath
      · rintro ⟨σ, l', hσ, hwell, hl', hs, hadmits⟩
        have hread' := Layer.ofFile_iff_haveSettings.mpr ⟨σ.file, hσ.file hpath, hwell, hl'⟩
        obtain rfl := Except.ok.inj (hread.symm.trans hread')
        rw [hσ.flags, hσ.environment] at hs
        exact ⟨hs, hadmits⟩

/-- Loading fails if the settings file cannot be used or a value is not admitted. -/
theorem load_eq_error_iff :
    (∃ fault, load files env o = .error fault) ↔
      (o.configFile ≠ [] ∧ ¬ ∃ file, files.HaveSettings o.configFile file) ∨
        ∃ σ : Sources, σ.Of files env o ∧
          ((∃ x, σ.file.Malformed x) ∨
            ∃ (x : Setting) (v : x.Value), σ.Resolves x v ∧ ¬ x.Admits v) := by
  constructor
  · rintro ⟨fault, hfault⟩
    by_cases hfile : o.configFile ≠ [] ∧ ¬ ∃ file, files.HaveSettings o.configFile file
    · exact .inl hfile
    · obtain ⟨σ, hσ⟩ := Sources.exists_of hfile
      refine .inr ⟨σ, hσ, ?_⟩
      by_contra hgood
      obtain ⟨hwell, hadmitted⟩ := not_or.mp hgood
      obtain ⟨l, hl⟩ := σ.file.exists_amountsTo
      have hadmits (x : Setting) (v : x.Value) (hv : σ.Resolves x v) : x.Admits v :=
        by_contra fun h => hadmitted ⟨x, v, hv, h⟩
      have hload := load_eq_ok_iff.mpr ⟨σ, l, hσ, not_exists.mp hwell, hl, rfl, fun x =>
        hadmits x _ ((Sources.resolves_iff hl).mpr rfl)⟩
      cases hfault.symm.trans hload
  · intro h
    cases hload : load files env o with
    | error fault => exact ⟨fault, rfl⟩
    | ok s =>
      obtain ⟨τ, l, hτ, hwell, hl, rfl, hadmits⟩ := load_eq_ok_iff.mp hload
      exfalso
      obtain ⟨hpath, hfile⟩ | ⟨σ, hσ, hbad⟩ := h
      · exact hfile ⟨τ.file, hτ.file hpath⟩
      · obtain rfl := hσ.unique hτ
        obtain ⟨x, hx⟩ | ⟨x, v, hv, hx⟩ := hbad
        · exact hwell x hx
        · obtain rfl := (Sources.resolves_iff hl).mp hv
          exact hx (hadmits x)

end Settings

/-! ## What one setting has to do with another -/

namespace Setting

/-- The variables that are asked for a setting. -/
def asked : Setting → List Bytes
  | .color => [utf8 "NO_COLOR", utf8 "OXIDO_COLOR"]
  | x => x.variableName?.toList

def all : List Setting :=
  [.debug, .dryRun, .time, .color, .maxSteps, .maxCallDepth, .logLevel, .port, .playgroundMaxSteps,
    .playgroundMaxCallDepth, .runTimeout, .maxSourceBytes, .cacheSize, .shutdownGracePeriod,
    .readHeaderTimeout, .writeTimeout, .idleTimeout, .enableRequestLogging, .rateLimitRps,
    .rateLimitBurst]

theorem mem_all (x : Setting) : x ∈ all := by cases x <;> decide

/-- No two settings share a key or a variable. -/
theorem names_disjoint {x y : Setting} (h : x ≠ y) :
    x.key ≠ y.key ∧ ∀ name ∈ x.asked, name ∉ y.asked := by
  have hall : ∀ x ∈ all, ∀ y ∈ all, x ≠ y →
      x.key ≠ y.key ∧ ∀ name ∈ x.asked, name ∉ y.asked := by decide +kernel
  exact hall x (mem_all x) y (mem_all y) h

theorem mem_asked {x : Setting} {name : Bytes} (h : x.variableName? = some name) :
    name ∈ x.asked := by
  cases x with
  | color =>
    cases h
    exact .tail _ (.head _)
  | _ => exact Option.mem_toList.mpr h

end Setting

namespace Environment

variable {env env' : Environment} {x : Setting}

theorem Says.congr (h : ∀ name ∈ x.asked, env.get? name = env'.get? name) {v : x.Value}
    (hv : env.Says x v) : env'.Says x v := by
  obtain ⟨name, hname, hreads, hrange⟩ := hv
  rw [h name (Setting.mem_asked hname)] at hreads
  exact ⟨name, hname, hreads, hrange⟩

/-- The environment supplies values by the variables that are asked for the setting. -/
theorem Gives.congr (h : ∀ name ∈ x.asked, env.get? name = env'.get? name) {v : x.Value}
    (hv : env.Gives x v) : env'.Gives x v := by
  cases x with
  | color =>
    have hno := h (utf8 "NO_COLOR") (.head _)
    change if (env.get? (utf8 "NO_COLOR")).isSome then v = false else env.Says .color v at hv
    change if (env'.get? (utf8 "NO_COLOR")).isSome then v = false else env'.Says .color v
    rw [← hno]
    by_cases hset : (env.get? (utf8 "NO_COLOR")).isSome
    · rw [if_pos hset] at hv ⊢
      exact hv
    · rw [if_neg hset] at hv ⊢
      exact hv.congr h
  | _ => exact Says.congr h hv

/-- A variable that is there keeps its value. -/
theorem get?_merge {vars : Environment} {name value : Bytes} (h : env.get? name = some value) :
    (env.merge vars).get? name = some value := by
  have hlookup : env.lookup name = some value := h
  unfold merge get?
  rw [List.lookup_append, hlookup, Option.some_or]

theorem get?_withFile {files : Files} {path name value : Bytes} (h : env.get? name = some value) :
    (env.withFile files path).get? name = some value := by
  unfold withFile
  cases files.read path with
  | error why => exact h
  | ok contents =>
    cases hvars : ofFile? contents with
    | none =>
      simp only [hvars]
      exact h
    | some vars =>
      simp only [hvars]
      exact get?_merge h

end Environment

namespace Sources

/-- The sources say the same about a setting. -/
structure AgreeOn (σ τ : Sources) (x : Setting) : Prop where
  flag : σ.flags.flag? x = τ.flags.flag? x
  entry : σ.file x = τ.file x
  environment : ∀ name ∈ x.asked, σ.environment.get? name = τ.environment.get? name

theorem AgreeOn.resolves {σ τ : Sources} {x : Setting} {v : x.Value} (h : σ.AgreeOn τ x)
    (hv : σ.Resolves x v) : τ.Resolves x v := by
  have hflags : σ.flags.Gives x = τ.flags.Gives x := by
    unfold Overrides.Gives
    rw [h.flag]
  have hfile : σ.file.Gives x = τ.file.Gives x := by
    unfold SettingsFile.Gives
    rw [h.entry]
  have henvironment : σ.environment.Gives x = τ.environment.Gives x :=
    funext fun w => propext
      ⟨Environment.Gives.congr h.environment,
        Environment.Gives.congr fun name hname => (h.environment name hname).symm⟩
  unfold Resolves at hv ⊢
  rwa [← hflags, ← hfile, ← henvironment]

end Sources

/-- Settings are loaded from the sources in their order, each on its own: variables that are there
go before those of the environment file; every setting has the value from the first source that
supplies one, and it is admitted; there are no settings exactly if the settings file cannot be used
or such a value is not admitted; and a setting has the same value wherever its own sources say the
same, none of which it shares with another setting. -/
theorem settings_resolve_in_order (files : Files) (env : Environment) (o : Overrides) :
    (∀ name value, env.get? name = some value →
      (Settings.environment files env o).get? name = some value) ∧
    (∀ s, Settings.load files env o = .ok s →
      ∃ σ : Sources, σ.Of files env o ∧
        ∀ x, (∀ v, σ.Resolves x v ↔ v = s.get x) ∧ x.Admits (s.get x)) ∧
    ((∃ fault, Settings.load files env o = .error fault) ↔
      (o.configFile ≠ [] ∧ ¬ ∃ file, files.HaveSettings o.configFile file) ∨
        ∃ σ : Sources, σ.Of files env o ∧
          ((∃ x, σ.file.Malformed x) ∨
            ∃ (x : Setting) (v : x.Value), σ.Resolves x v ∧ ¬ x.Admits v)) ∧
    (∀ files' env' o' s s', Settings.load files env o = .ok s →
      Settings.load files' env' o' = .ok s' →
        ∀ σ τ : Sources, σ.Of files env o → τ.Of files' env' o' →
          ∀ x, σ.AgreeOn τ x → s.get x = s'.get x) ∧
    ∀ x y : Setting, x ≠ y → x.key ≠ y.key ∧ ∀ name ∈ x.asked, name ∉ y.asked := by
  refine ⟨fun name value h => ?_, fun s hs => ?_, Settings.load_eq_error_iff, ?_,
    fun x y h => Setting.names_disjoint h⟩
  · exact Environment.get?_withFile h
  · obtain ⟨σ, l, hσ, -, hl, rfl, hadmits⟩ := Settings.load_eq_ok_iff.mp hs
    exact ⟨σ, hσ, fun x => ⟨fun v => Sources.resolves_iff hl, hadmits x⟩⟩
  · intro files' env' o' s s' hs hs' σ τ hσ hτ x hagree
    obtain ⟨σ', l, hσ', -, hl, rfl, -⟩ := Settings.load_eq_ok_iff.mp hs
    obtain ⟨τ', l', hτ', -, hl', rfl, -⟩ := Settings.load_eq_ok_iff.mp hs'
    obtain rfl := hσ.unique hσ'
    obtain rfl := hτ.unique hτ'
    have hresolves := hagree.resolves ((Sources.resolves_iff hl).mpr rfl)
    exact (Sources.resolves_iff hl').mp hresolves

/-- The environment names a log level that there is not, but the flag stands before it; and its step
budget stands behind that of the settings file. Its port is used, without the blanks around it. -/
theorem overridden_values_are_not_looked_at :
    Settings.load ⟨[(utf8 "s.yml", some (utf8 "max_steps: 7\n"))]⟩
        [(utf8 "OXIDO_MAX_STEPS", utf8 "5"), (utf8 "OXIDO_LOG_LEVEL", utf8 "loud"),
          (utf8 "PORT", utf8 " \t9000 \n")]
        { configFile := utf8 "s.yml", logLevel := some (utf8 "warn") } =
      .ok { maxSteps := 7, logLevel := utf8 "warn", port := utf8 "9000" } ∧
    ∃ σ : Sources,
      σ.Of ⟨[(utf8 "s.yml", some (utf8 "max_steps: 7\n"))]⟩
        [(utf8 "OXIDO_MAX_STEPS", utf8 "5"), (utf8 "OXIDO_LOG_LEVEL", utf8 "loud"),
          (utf8 "PORT", utf8 " \t9000 \n")]
        { configFile := utf8 "s.yml", logLevel := some (utf8 "warn") } ∧
      σ.Resolves .maxSteps (7 : Int64) ∧ σ.Resolves .logLevel (utf8 "warn") ∧
      σ.Resolves .port (utf8 "9000") := by
  have hload : Settings.load ⟨[(utf8 "s.yml", some (utf8 "max_steps: 7\n"))]⟩
        [(utf8 "OXIDO_MAX_STEPS", utf8 "5"), (utf8 "OXIDO_LOG_LEVEL", utf8 "loud"),
          (utf8 "PORT", utf8 " \t9000 \n")]
        { configFile := utf8 "s.yml", logLevel := some (utf8 "warn") } =
      .ok { maxSteps := 7, logLevel := utf8 "warn", port := utf8 "9000" } := by
    decide +kernel
  obtain ⟨σ, hσ, hvalues⟩ := (settings_resolve_in_order _ _ _).2.1 _ hload
  exact ⟨hload, σ, hσ, ((hvalues .maxSteps).1 _).mpr rfl, ((hvalues .logLevel).1 _).mpr rfl,
    ((hvalues .port).1 _).mpr rfl⟩

end Scriptlet
