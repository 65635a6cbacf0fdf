import Scriptlet.Proofs.Runner.Reading

/-!
# Session: runs one after the other

A surface outlives a run: what is left of the input, what was written and what the store holds are
there for the next. A session is a list of uses of a surface, runs among them. What a run shows does
not depend on the store behind the surface as long as that is honest, and every use leaves an honest
store behind.
-/

namespace Scriptlet

/-! ## What a run shows -/

/-- The report with the given word on whether the program came from the store. -/
def RunEnd.setCached (cached : Bool) : RunEnd → RunEnd
  | .refused why => .refused why
  | .finished r => .finished { r with cached }
  | .failed r d => .failed { r with cached } d
  | .stuck r => .stuck { r with cached }
  | .unfinished r => .unfinished { r with cached }

/-- What a run shows: how it ended, but for whether its program came from the store, all that was
written by then, and what is left of the input. -/
structure Showing where
  ending : RunEnd
  out : Sink
  err : Sink
  source : Source

/-- What is shown by a run that ended in the given way and left the given surface. -/
def Showing.of (r : RunEnd × Surface) : Showing :=
  ⟨r.1.setCached false, r.2.out, r.2.err, r.2.source⟩

/-- The surfaces differ in their stores and logs only. -/
structure Surface.Alike (w v : Surface) : Prop where
  out : v.out = w.out
  err : v.err = w.err
  source : v.source = w.source

namespace Surface.Alike

variable {v w : Surface}

theorem backed (w : Surface) (store log) : Alike w (w.backed store log) := ⟨rfl, rfl, rfl⟩

theorem eq_backed (h : Alike w v) : v = w.backed v.store v.log := by
  obtain ⟨out, err, source⟩ := h
  unfold Surface.backed
  rw [← out, ← err, ← source]

theorem record (h : Alike w v) (entry entry' : LogEntry) :
    Alike (w.record entry) (v.record entry') := ⟨h.out, h.err, h.source⟩

end Surface.Alike

/-- The outcomes show the same. -/
structure ShowAlike (r r' : RunEnd × Surface) : Prop where
  ending : r'.1.setCached false = r.1.setCached false
  surface : r.2.Alike r'.2

theorem ShowAlike.showing_eq {r r' : RunEnd × Surface} (h : ShowAlike r r') :
    Showing.of r' = Showing.of r := by
  unfold Showing.of
  rw [h.ending, h.surface.out, h.surface.err, h.surface.source]

namespace Runner

variable {w v : Surface}

theorem draw_alike (h : w.Alike v) (e : Runner) (name source : Bytes) (d : Diagnostic) :
    (e.draw name source d w).Alike (e.draw name source d v) := by
  unfold draw
  rw [h.err]
  split
  · exact ⟨h.out, rfl, h.source⟩
  · exact ⟨h.out, rfl, h.source⟩

@[simp] theorem draw_store (e : Runner) (name source : Bytes) (d : Diagnostic) (w : Surface) :
    (e.draw name source d w).store = w.store := by
  unfold draw
  split
  · rfl
  · rfl

theorem execute_backed (e : Runner) (p : Program) (w : Surface) (store log) :
    e.execute p (w.backed store log) =
      ((e.execute p w).1, (e.execute p w).2.1, (e.execute p w).2.2.backed store log) := rfl

/-- Running a program that was read shows the same whatever is behind the surface. -/
theorem perform_alike (h : w.Alike v) (e : Runner) (mode : RunMode) (name source : Bytes)
    (loaded : Loaded) (report : Report) (cached cached' : Bool) :
    ShowAlike (e.perform mode name source loaded { report with cached } w)
      (e.perform mode name source loaded { report with cached := cached' } v) := by
  rw [h.eq_backed]
  unfold perform conclude
  rw [execute_backed]
  generalize e.execute loaded.program w = ran
  obtain ⟨halt, steps, u⟩ := ran
  -- Both executions end alike, and what is written after them does not look at the store.
  cases halt with
  | some halt =>
    cases halt with
    | fault d =>
      refine ⟨rfl, ?_⟩
      dsimp only
      exact draw_alike (.backed _ v.store _) e name source d
    | exit code => exact ⟨rfl, rfl, rfl, rfl⟩
    | stuck => exact ⟨rfl, rfl, rfl, rfl⟩
    | outOfFuel => exact ⟨rfl, rfl, rfl, rfl⟩
  | none =>
    have htrailer := blindness.trailer e mode u
    dsimp only
    generalize e.executionEvents name none steps _ = events
    generalize e.executionEvents name none steps _ = events'
    have hw := htrailer u.store (u.log ++ events)
    have hv := htrailer v.store (v.log ++ events')
    cases ht : e.trailer mode u with
    | ok a t =>
      rw [ht] at hw hv
      simp only [Surface.backed, backed] at hw hv ⊢
      rw [hw, hv]
      exact ⟨rfl, rfl, rfl, rfl⟩
    | error d t =>
      rw [ht] at hw hv
      simp only [Surface.backed, backed] at hw hv ⊢
      rw [hw, hv]
      refine ⟨rfl, ?_⟩
      dsimp only
      exact draw_alike (.backed (t.backed u.store _) v.store _) e name source d

@[simp] theorem perform_store (e : Runner) (mode : RunMode) (name source : Bytes) (loaded : Loaded)
    (report : Report) (w : Surface) :
    (e.perform mode name source loaded report w).2.store = w.store := by
  have hexec : (e.execute loaded.program w).2.2.store = w.store := rfl
  unfold perform conclude
  revert hexec
  generalize e.execute loaded.program w = ran
  obtain ⟨halt, steps, u⟩ := ran
  intro hu
  cases halt with
  | some halt =>
    cases halt with
    | fault d => exact (draw_store ..).trans hu
    | exit code | stuck | outOfFuel => exact hu
  | none =>
    dsimp only
    generalize e.executionEvents name none steps _ = events
    have ht := Blind.ends_store (blindness.trailer e mode) { u with log := u.log ++ events }
    cases h : e.trailer mode { u with log := u.log ++ events } with
    | ok a t => exact (ht.of_ok h).trans hu
    | error d t => exact (draw_store ..).trans ((ht.of_error h).trans hu)

theorem proceed_alike (h : w.Alike v) (e : Runner) (mode : RunMode) (name source : Bytes)
    (loaded : Loaded) (cached cached' : Bool) :
    ShowAlike (e.proceed mode name source loaded cached w)
      (e.proceed mode name source loaded cached' v) := by
  unfold proceed
  dsimp only
  split
  · exact ⟨rfl, h.record _ _⟩
  · exact perform_alike (h.record _ _) e mode name source loaded
      { name, tokens := loaded.tokens.length, statements := loaded.program.length } cached cached'

@[simp] theorem proceed_store (e : Runner) (mode : RunMode) (name source : Bytes) (loaded : Loaded)
    (cached : Bool) (w : Surface) :
    (e.proceed mode name source loaded cached w).2.store = w.store := by
  unfold proceed
  dsimp only
  split
  · rfl
  · exact perform_store ..

/-! ## Runs on an honest store -/

variable {sources : List Bytes} {source : Bytes}

/-- How a run with a usable mode goes on an honest store: it reads the source, whether or not the
program was in the store, and goes on with the program or reports the fault. -/
theorem run_cases (hd : Store.Distinct sources) (hs : source ∈ sources) (hw : w.Honest sources)
    (e : Runner) {mode : Option RunMode} {used : RunMode} (hm : RunMode.usable mode = .ok used)
    (name : Bytes) :
    ∃ cached store,
      LoadedFrom sources source w.store store cached (stops (e.read used source w)) ∧
      ((∃ loaded u, e.read used source w = .ok loaded u ∧ e.run mode name source w =
          e.proceed used name source loaded cached (u.backed store w.log)) ∨
        (∃ d u, e.read used source w = .error d u ∧ e.run mode name source w =
          (.failed { name, cached } d, e.draw name source d (u.backed store w.log)))) := by
  obtain ⟨cached, store, hload, hfrom⟩ := load_eq_read e used hd hs hw
  refine ⟨cached, store, hfrom, ?_⟩
  unfold Runner.run
  simp only [hm, hload]
  cases e.read used source w with
  | ok loaded u => exact .inl ⟨loaded, u, rfl, rfl⟩
  | error d u => exact .inr ⟨d, u, rfl, rfl⟩

/-- What a run on an honest store shows does not depend on the store. -/
theorem run_alike (hd : Store.Distinct sources) (hs : source ∈ sources) (hw : w.Honest sources)
    (hv : v.Honest sources) (h : w.Alike v) (e : Runner) (mode : Option RunMode) (name : Bytes) :
    ShowAlike (e.run mode name source w) (e.run mode name source v) := by
  cases hm : RunMode.usable mode with
  | error why =>
    unfold Runner.run
    rw [hm]
    exact ⟨rfl, h⟩
  | ok used =>
    have hread : e.read used source v = backed v.store v.log (e.read used source w) := by
      rw [h.eq_backed]
      exact blind_read e used source w v.store v.log
    obtain ⟨cached, store, -, hrun⟩ := run_cases hd hs hw e hm name
    obtain ⟨cached', store', -, hrun'⟩ := run_cases hd hs hv e hm name
    -- Reading does not look at the store, so the two runs take the same branch.
    rcases hrun with ⟨loaded, u, hr, hrun⟩ | ⟨d, u, hr, hrun⟩
    · rw [hr] at hread
      rcases hrun' with ⟨loaded', u', hr', hrun'⟩ | ⟨d', u', hr', -⟩
      · rw [hread] at hr'
        cases hr'
        rw [hrun, hrun']
        exact proceed_alike (.backed (u.backed store w.log) store' v.log) e used name source loaded
          cached cached'
      · rw [hread] at hr'
        cases hr'
    · rw [hr] at hread
      rcases hrun' with ⟨loaded', u', hr', -⟩ | ⟨d', u', hr', hrun'⟩
      · rw [hread] at hr'
        cases hr'
      · rw [hread] at hr'
        cases hr'
        rw [hrun, hrun']
        exact ⟨rfl, draw_alike (.backed (u.backed store w.log) store' v.log) e name source d⟩

/-- A run on an honest store leaves an honest store. -/
theorem run_honest (hd : Store.Distinct sources) (hs : source ∈ sources) (hw : w.Honest sources)
    (e : Runner) (mode : Option RunMode) (name : Bytes) :
    (e.run mode name source w).2.Honest sources := by
  cases hm : RunMode.usable mode with
  | error why =>
    unfold Runner.run
    rw [hm]
    exact hw
  | ok used =>
    obtain ⟨cached, store, hfrom, ⟨loaded, u, -, hrun⟩ | ⟨d, u, -, hrun⟩⟩ :=
      run_cases hd hs hw e hm name
    · rw [hrun, Surface.Honest, proceed_store]
      exact hfrom.honest
    · rw [hrun, Surface.Honest, draw_store]
      exact hfrom.honest

theorem report_perform (e : Runner) (mode : RunMode) (name source : Bytes) (loaded : Loaded)
    (report : Report) (w : Surface) :
    ∃ r, (e.perform mode name source loaded report w).1.report? = some r ∧
      r.cached = report.cached ∧ r.executed = true := by
  unfold perform conclude
  generalize e.execute loaded.program w = ran
  obtain ⟨halt, steps, u⟩ := ran
  cases halt with
  | some halt =>
    cases halt with
    | fault d | exit code | stuck | outOfFuel => exact ⟨_, rfl, rfl, rfl⟩
  | none =>
    dsimp only
    split
    · exact ⟨_, rfl, rfl, rfl⟩
    · exact ⟨_, rfl, rfl, rfl⟩

/-- The report of a run that went on says whether the program came from the store. Such a run can
fail only once it executes its program. -/
theorem report_proceed (e : Runner) (mode : RunMode) (name source : Bytes) (loaded : Loaded)
    (cached : Bool) (w : Surface) :
    ∃ r, (e.proceed mode name source loaded cached w).1.report? = some r ∧ r.cached = cached ∧
      ∀ d, (e.proceed mode name source loaded cached w).1 = .failed r d → r.executed = true := by
  unfold proceed
  dsimp only
  split
  · exact ⟨_, rfl, rfl, fun d h => by cases h⟩
  · obtain ⟨r, hr, hcached, hexecuted⟩ := e.report_perform mode name source loaded
      { name, tokens := loaded.tokens.length, statements := loaded.program.length, cached }
      (w.record (e.event name (utf8 "program parsed")
        [(utf8 "tokens", .number loaded.tokens.length),
          (utf8 "statements", .number loaded.program.length), (utf8 "cached", .flag cached)]))
    exact ⟨r, hr, hcached, fun _ _ => hexecuted⟩

/-- Only a source that can be read is served from an honest store. -/
theorem run_served (hd : Store.Distinct sources) (hs : source ∈ sources) (hw : w.Honest sources)
    (e : Runner) (mode : Option RunMode) (name : Bytes) {report : Report}
    (hr : (e.run mode name source w).1.report? = some report) (hc : report.cached = true) :
    ∃ loaded, Loaded.ofSource source = .ok loaded := by
  cases hm : RunMode.usable mode with
  | error why =>
    unfold Runner.run at hr
    rw [hm] at hr
    cases hr
  | ok used =>
    obtain ⟨cached, store, hfrom, ⟨loaded, u, -, hrun⟩ | ⟨d, u, -, hrun⟩⟩ :=
      run_cases hd hs hw e hm name
    · obtain ⟨r, hproceed, hcached, -⟩ :=
        e.report_proceed used name source loaded cached (u.backed store w.log)
      rw [hrun, hproceed] at hr
      cases hr
      exact hfrom.served (hcached ▸ hc)
    · rw [hrun] at hr
      cases hr
      exact hfrom.served hc

/-- A program that was not served and failed before it was executed is not kept. -/
theorem run_kept (hd : Store.Distinct sources) (hs : source ∈ sources) (hw : w.Honest sources)
    (e : Runner) (mode : Option RunMode) (name : Bytes) {report : Report} {d : Diagnostic}
    (hr : (e.run mode name source w).1 = .failed report d) (hc : report.cached = false)
    (hx : report.executed = false) :
    (e.run mode name source w).2.store.map (fun s => s.programs) =
      w.store.map (fun s => s.programs) := by
  cases hm : RunMode.usable mode with
  | error why =>
    unfold Runner.run at hr
    rw [hm] at hr
    cases hr
  | ok used =>
    obtain ⟨cached, store, hfrom, ⟨loaded, u, -, hrun⟩ | ⟨d', u, hread, hrun⟩⟩ :=
      run_cases hd hs hw e hm name
    · obtain ⟨r, hproceed, -, hexecuted⟩ :=
        e.report_proceed used name source loaded cached (u.backed store w.log)
      rw [hrun] at hr
      rw [hr] at hproceed
      cases hproceed
      -- A run that went on and failed did execute its program.
      rw [hexecuted d hr] at hx
      cases hx
    · rw [hrun] at hr
      cases hr
      rw [hrun, draw_store]
      exact hfrom.kept hc (by rw [hread]; rfl)

end Runner

/-! ## Sessions -/

/-- A use of a surface: a run, or an operation on the store. -/
inductive Use where
  | run (e : Runner) (mode : Option RunMode) (name source : Bytes)
  /-- Looks a key up in the store. -/
  | get (key : Bytes)
  /-- Drops one program: a store may do so at any time and choose any. -/
  | evict (key : Bytes)
  /-- Drops every program of the store. -/
  | purge
  /-- Asks the store for its usage. -/
  | stats

namespace Use

/-- The sources that runs among the uses are given. -/
def sources : List Use → List Bytes
  | [] => []
  | .run _ _ _ source :: rest => source :: sources rest
  | .get _ :: rest | .evict _ :: rest | .purge :: rest | .stats :: rest => sources rest

/-- The surface after a use, and what it shows if it is a run. -/
def step (w : Surface) : Use → Option Showing × Surface
  | .run e mode name source =>
    let r := e.run mode name source w
    (some (.of r), r.2)
  | .get k => (none, { w with store := w.store.map fun s => (s.get k).2 })
  | .evict k => (none, { w with store := w.store.map fun s => s.drop k })
  | .purge => (none, { w with store := w.store.map Store.purge })
  | .stats => (none, w)

/-- The surface after the uses. -/
def after (w : Surface) : List Use → Surface
  | [] => w
  | u :: rest => after (step w u).2 rest

/-- What the runs among the uses show, one after the other. -/
def showings (w : Surface) : List Use → List Showing
  | [] => []
  | u :: rest => (step w u).1.toList ++ showings (step w u).2 rest

variable {keyed : List Bytes} {w v : Surface}

/-- What holds of everything in the store still holds after a use, if it does after a run. -/
theorem holds_step {Q : Bytes → Loaded → Prop} (hw : ∀ s ∈ w.store, s.Holds Q) (u : Use)
    (hrun : ∀ e mode name source, u = .run e mode name source →
      ∀ s ∈ (e.run mode name source w).2.store, s.Holds Q) :
    ∀ s ∈ (step w u).2.store, s.Holds Q := by
  have hmap (f : Store Loaded → Store Loaded) (hf : ∀ s, s.Holds Q → (f s).Holds Q) :
      ∀ s ∈ w.store.map f, s.Holds Q := by
    intro s hs
    obtain ⟨t, ht, rfl⟩ := Option.map_eq_some_iff.1 hs
    exact hf t (hw t ht)
  cases u with
  | run e mode name source => exact hrun e mode name source rfl
  | get k => exact hmap _ fun _ hs => hs.get k
  | evict k => exact hmap _ fun _ hs => hs.drop k
  | purge => exact hmap _ fun _ hs => hs.purge
  | stats => exact hw

/-- Every use leaves an honest store behind. -/
theorem honest_step (hd : Store.Distinct keyed) (hw : w.Honest keyed) (u : Use)
    (hu : ∀ source ∈ sources [u], source ∈ keyed) : (step w u).2.Honest keyed := by
  have hstep := holds_step (Q := fun k l =>
    ∀ source ∈ keyed, Store.key source = k → Loaded.ofSource source = .ok l) hw u
  apply hstep
  rintro e mode name source rfl
  exact Runner.run_honest hd (hu source (List.mem_singleton.2 rfl)) hw e mode name

/-- A use shows the same on two surfaces that differ in their honest stores, and leaves two such
surfaces. -/
theorem alike_step (hd : Store.Distinct keyed) (hw : w.Honest keyed) (hv : v.Honest keyed)
    (h : w.Alike v) (u : Use) (hu : ∀ source ∈ sources [u], source ∈ keyed) :
    (step v u).1 = (step w u).1 ∧ (step w u).2.Alike (step v u).2 := by
  cases u with
  | run e mode name source =>
    have hrun := Runner.run_alike hd (hu source (List.mem_singleton.2 rfl)) hw hv h e mode name
    exact ⟨congrArg some hrun.showing_eq, hrun.surface⟩
  | get k | evict k | purge | stats => exact ⟨rfl, h.out, h.err, h.source⟩

theorem sources_cons (u : Use) (rest : List Use) :
    sources (u :: rest) = sources [u] ++ sources rest := by
  cases u with
  | run | get | evict | purge | stats => rfl

theorem sources_append (before rest : List Use) :
    sources (before ++ rest) = sources before ++ sources rest := by
  induction before with
  | nil => rfl
  | cons u before ih =>
    rw [List.cons_append, sources_cons, ih, sources_cons u before, List.append_assoc]

/-- Every session leaves an honest store behind. -/
theorem honest_after (hd : Store.Distinct keyed) (uses : List Use)
    (hu : ∀ source ∈ sources uses, source ∈ keyed) (hw : w.Honest keyed) :
    (after w uses).Honest keyed := by
  induction uses generalizing w with
  | nil => exact hw
  | cons u rest ih =>
    rw [sources_cons] at hu
    have hfirst := honest_step hd hw u fun s hs => hu s (List.mem_append_left _ hs)
    exact ih (fun s hs => hu s (List.mem_append_right _ hs)) hfirst

/-- A session shows the same on two surfaces that differ in their honest stores. -/
theorem showings_alike (hd : Store.Distinct keyed) (uses : List Use)
    (hu : ∀ source ∈ sources uses, source ∈ keyed) (hw : w.Honest keyed) (hv : v.Honest keyed)
    (h : w.Alike v) : showings v uses = showings w uses := by
  induction uses generalizing w v with
  | nil => rfl
  | cons u rest ih =>
    rw [sources_cons] at hu
    have hfirst : ∀ source ∈ sources [u], source ∈ keyed :=
      fun s hs => hu s (List.mem_append_left _ hs)
    obtain ⟨hshow, hsurface⟩ := alike_step hd hw hv h u hfirst
    have hrest := ih (fun s hs => hu s (List.mem_append_right _ hs)) (honest_step hd hw u hfirst)
      (honest_step hd hv u hfirst) hsurface
    rw [showings, showings, hshow, hrest]

end Use
end Scriptlet
