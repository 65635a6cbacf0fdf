import Scriptlet.Proofs.Machine.Termination
import Scriptlet.Proofs.Runner.Verdict

/-!
# Ending: every bounded run is decided

Where one of the steps to come stops every program, a run finishes or fails with a diagnostic, given
enough fuel to follow it. All that it takes of the store is that the programs in it were read, from
whatever texts.
-/

namespace Scriptlet

/-- The run finished or failed. -/
def RunEnd.Decided : RunEnd → Prop
  | .finished _ | .failed _ _ => True
  | .refused _ | .stuck _ | .unfinished _ => False

/-- The program comes from a text. -/
def Loaded.Parsed (loaded : Loaded) : Prop := ∃ source, Loaded.ofSource source = .ok loaded

/-- The store, if there is one, holds only programs that come from texts. -/
def Surface.Parsed (w : Surface) : Prop := ∀ s ∈ w.store, s.Holds fun _ loaded => loaded.Parsed

namespace Runner

variable {w : Surface} {loaded : Loaded}

/-! ## What is loaded -/

theorem parsed_keep (hw : w.Parsed) (source : Bytes) (hl : loaded.Parsed) :
    Ends (keep source loaded w) (fun _ v => v.Parsed) (fun _ v => v.Parsed) := by
  intro s hs
  obtain ⟨t, ht, rfl⟩ := Option.map_eq_some_iff.1 hs
  exact (hw t ht).add hl

theorem parsed_read (hw : w.Parsed) (e : Runner) (mode : RunMode) (source : Bytes) :
    Ends (e.read mode source w)
      (fun loaded v => Loaded.ofSource source = .ok loaded ∧ v.Parsed) (fun _ v => v.Parsed) := by
  have hstore := (blind_read e mode source).ends_store w
  have hparsed (v : Surface) (hv : v.store = w.store) : v.Parsed := by
    unfold Surface.Parsed
    rw [hv]
    exact hw
  refine ((ends_read e mode source w).and hstore).mono (fun loaded v hv => ?_) (fun d v hv => ?_)
  · exact ⟨hv.1, hparsed v hv.2⟩
  · exact hparsed v hv.2

theorem parsed_load (hw : w.Parsed) (e : Runner) (mode : RunMode) (source : Bytes) :
    Ends (e.load mode source w).2 (fun loaded v => loaded.Parsed ∧ v.Parsed)
      (fun _ v => v.Parsed) := by
  let looked := w.store.map fun s => (s.get (Store.key source)).2
  have hlooked : (w.backed looked w.log).Parsed := by
    intro s hs
    obtain ⟨t, ht, rfl⟩ := Option.map_eq_some_iff.1 hs
    exact (hw t ht).get _
  unfold load
  rw [lookUp_eq]
  cases hfound : w.store.bind fun s => (s.get (Store.key source)).1 with
  | some loaded =>
    obtain ⟨s, hs, hget⟩ := Option.bind_eq_some_iff.1 hfound
    obtain ⟨other, hother⟩ := (hw s hs).of_get hget
    -- The program may come from another text of the same key; showing it is like reading that.
    have hread := parsed_read hlooked e mode other
    rw [read_eq_dumps hother] at hread
    exact hread.mono (fun _ _ hv => ⟨⟨other, hv.1⟩, hv.2⟩) (fun _ _ hv => hv)
  | none =>
    show Ends ((e.read mode source >>= _) (w.backed looked w.log)) _ _
    rw [Ends.bind_iff]
    refine (parsed_read hlooked e mode source).mono (fun loaded v hv => ?_) (fun _ _ hv => hv)
    rw [Ends.bind_iff]
    have hl : loaded.Parsed := ⟨source, hv.1⟩
    exact (parsed_keep hv.2 source hl).mono (fun _ _ hu => ⟨hl, hu⟩) (fun _ _ hu => hu)

theorem parsed_run (hw : w.Parsed) (e : Runner) (mode : Option RunMode) (name source : Bytes) :
    (e.run mode name source w).2.Parsed := by
  unfold run
  cases RunMode.usable mode with
  | error why => exact hw
  | ok mode =>
    have hload := parsed_load hw e mode source
    dsimp only
    generalize e.load mode source w = loading at hload
    obtain ⟨cached, read⟩ := loading
    cases read with
    | ok loaded u =>
      show ∀ s ∈ (e.proceed mode name source loaded cached u).2.store, _
      rw [proceed_store]
      exact hload.2
    | error d u =>
      show ∀ s ∈ (e.draw name source d u).store, _
      rw [draw_store]
      exact hload

/-! ## How it ends -/

theorem decided_conclude (e : Runner) (mode : RunMode) (name source : Bytes) {halt : Option Halt}
    (hproper : ∀ h ∈ halt, h.Proper) (hfuel : halt ≠ some .outOfFuel) (steps : Int64)
    (report : Report) (w : Surface) :
    (e.conclude mode name source halt steps report w).1.Decided := by
  unfold conclude
  cases halt with
  | some halt =>
    cases halt with
    | fault d | exit code => trivial
    | stuck => exact hproper _ rfl
    | outOfFuel => exact hfuel rfl
  | none =>
    dsimp only
    split <;> trivial

theorem exists_fuel_of_execute {e : Runner} (hb : e.budget.Stops) (p : Program) (w : Surface) :
    ∃ n, ∀ fuel, n ≤ fuel → ({ e with fuel }.execute p w).1 ≠ some .outOfFuel := by
  obtain ⟨n, hn⟩ := Machine.exists_finished_of_stops hb p
    { input := .ofSource w.source, output := w.out }
  refine ⟨n, fun fuel hfuel hout => ?_⟩
  obtain ⟨m, hrun⟩ := exists_run_of_execute hout
  rw [Machine.run_of_le hn hfuel] at hrun
  rw [hrun] at hn
  cases hn

theorem run_of_load_ok {e : Runner} {mode : Option RunMode} {used : RunMode} {source : Bytes}
    (hm : RunMode.usable mode = .ok used) {cached : Bool} {u : Surface}
    (h : e.load used source w = (cached, .ok loaded u)) (name : Bytes) :
    e.run mode name source w = e.proceed used name source loaded cached u := by
  unfold run
  simp only [hm, h]

theorem run_of_load_error {e : Runner} {mode : Option RunMode} {used : RunMode} {source : Bytes}
    (hm : RunMode.usable mode = .ok used) {cached : Bool} {d : Diagnostic} {u : Surface}
    (h : e.load used source w = (cached, .error d u)) (name : Bytes) :
    e.run mode name source w = (.failed { name, cached } d, e.draw name source d u) := by
  unfold run
  simp only [hm, h]

/-- A run on a budget that stops every program finishes or fails. -/
theorem exists_fuel_of_run {e : Runner} (hb : e.budget.Stops) {mode : Option RunMode}
    {used : RunMode} (hm : RunMode.usable mode = .ok used) (hw : w.Parsed) (name source : Bytes) :
    ∃ n, ∀ fuel, n ≤ fuel → ({ e with fuel }.run mode name source w).1.Decided := by
  have hends := parsed_load hw e used source
  -- Loading takes no fuel, so it ends the same whatever the fuel is.
  cases hload : e.load used source w with
  | mk cached read =>
    rw [hload] at hends
    cases read with
    | error d u =>
      refine ⟨0, fun fuel _ => ?_⟩
      rw [run_of_load_error (e := { e with fuel }) hm hload]
      trivial
    | ok loaded u =>
      obtain ⟨⟨other, hother⟩, -⟩ := hends
      by_cases hdry : used.dryRun = true
      · refine ⟨0, fun fuel _ => ?_⟩
        rw [run_of_load_ok (e := { e with fuel }) hm hload]
        unfold proceed
        rw [if_pos hdry]
        trivial
      · obtain ⟨n, hn⟩ := exists_fuel_of_execute hb loaded.program u
        refine ⟨n, fun fuel hfuel => ?_⟩
        rw [run_of_load_ok (e := { e with fuel }) hm hload]
        unfold proceed
        rw [if_neg hdry]
        exact decided_conclude _ used name source (fun _ hh => proper_of_execute hother hh)
          (hn fuel hfuel) _ _ _

end Runner

theorem Use.parsed_after {w : Surface} (uses : List Use) (hw : w.Parsed) :
    (Use.after w uses).Parsed := by
  induction uses generalizing w with
  | nil => exact hw
  | cons u rest ih =>
    apply ih
    apply holds_step hw u
    rintro e mode name source rfl
    exact Runner.parsed_run hw e mode name source

end Scriptlet
