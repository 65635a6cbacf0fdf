import Scriptlet.Proofs.Machine.Bound
import Scriptlet.Proofs.Runner.Verdict

/-!
# Bound: runs on a bounded output

What a runner writes itself, the stages it shows and the end of a completed run, is refused like the
writes of a program, and the first refusal ends the run. So a run on a bounded output writes a
beginning of what it writes without the bound, in whole writes; all of it, if no stream failed.
-/

namespace Scriptlet

open Writable

instance : Writable Surface where
  sink w := w.out
  withSink w t := { w with out := t }
  sink_withSink _ _ := rfl
  withSink_withSink _ _ _ := rfl

/-- A stream did not do what was asked of it. -/
def Diagnostic.Broken (d : Diagnostic) : Prop := d.code = .io

theorem Halt.Broken.exists_fault {h : Halt} (hh : h.Broken) : ∃ d, h = .fault d ∧ d.Broken := by
  cases h with
  | fault d => exact ⟨d, rfl, hh⟩
  | exit _ | stuck | outOfFuel => exact hh.elim

/-- The first run, on a bounded output, went as the second with its bound lifted; or a stream
failed it, and the second wrote more. -/
structure RunEnd.Curbed (limit : Nat) (r r' : RunEnd × Surface) : Prop where
  within : r.2.out.Within limit
  cases : r' = (r.1, unbounded r.2) ∨
    (∃ report d, r.1 = .failed report d ∧ d.Broken) ∧ Stands r.2 r'.2

namespace Runner

variable {limit : Nat} {w : Surface}

/-- What a runner shows, it shows on a bounded output as without the bound, up to a write that is
refused. -/
def curbing (limit : Nat) : Invariant where
  Holds x := Curbs limit Diagnostic.Broken Eq x x
  pure _ := .pure rfl
  bind hx hf := .bind hx fun a _ hab => hab ▸ hf a
  emit text := .write (emit_eq text) fun _ => rfl

/-! ## Reading -/

theorem curbs_keep (limit : Nat) (source : Bytes) (loaded : Loaded) :
    Curbs limit Diagnostic.Broken Eq (keep source loaded) (keep source loaded) :=
  .modify (fun _ => rfl) fun _ => rfl

theorem curbs_show (limit : Nat) (e : Runner) (mode : RunMode) (loaded : Loaded) :
    (curbing limit).Holds
      (do e.dumpTokens mode loaded.tokens; e.dumpProgram mode loaded.program; return loaded) := by
  apply (curbing limit).bind ((curbing limit).dumpTokens e mode _)
  intro _
  apply (curbing limit).bind ((curbing limit).dumpProgram e mode _)
  intro _
  exact (curbing limit).pure _

theorem curbs_readAndKeep (limit : Nat) (e : Runner) (mode : RunMode) (source : Bytes) :
    (curbing limit).Holds
      (do let loaded ← e.read mode source; keep source loaded; return loaded) := by
  apply (curbing limit).bind ((curbing limit).read e mode (fun d => .throw d) source)
  intro loaded
  apply (curbing limit).bind (curbs_keep limit source loaded)
  intro _
  exact (curbing limit).pure _

theorem curbed_load (e : Runner) (mode : RunMode) (source : Bytes) (hw : w.out.Within limit) :
    (e.load mode source (unbounded w)).1 = (e.load mode source w).1 ∧
      Curbed limit Diagnostic.Broken Eq (e.load mode source w).2
        (e.load mode source (unbounded w)).2 := by
  let looked := w.store.map fun s => (s.get (Store.key source)).2
  have hfree : lookUp source (unbounded w) =
      .ok (w.store.bind fun s => (s.get (Store.key source)).1)
        (unbounded (w.backed looked w.log)) := lookUp_eq source (unbounded w)
  have hlooked : (w.backed looked w.log).out.Within limit := hw
  -- The store does not know of the bound, so both find the same and go on alike.
  unfold load
  rw [hfree, lookUp_eq source w]
  cases w.store.bind fun s => (s.get (Store.key source)).1 with
  | some loaded => exact ⟨rfl, Curbs.curbed (curbs_show limit e mode loaded) _ hlooked⟩
  | none => exact ⟨rfl, Curbs.curbed (curbs_readAndKeep limit e mode source) _ hlooked⟩

theorem after_load (e : Runner) (mode : RunMode) (source : Bytes) (w : Surface) :
    Ends (e.load mode source w).2 (fun _ u => After w u) (fun _ u => After w u) := by
  let looked := w.backed (w.store.map fun s => (s.get (Store.key source)).2) w.log
  unfold load
  rw [lookUp_eq]
  cases w.store.bind fun s => (s.get (Store.key source)).1 with
  | some loaded => exact Curbs.after_state (curbs_show 0 e mode loaded) looked
  | none => exact Curbs.after_state (curbs_readAndKeep 0 e mode source) looked

/-! ## Executing -/

theorem curbed_execute {e : Runner} (hb : e.budget.Fair) (p : Program) (hw : w.out.Within limit) :
    (e.execute p w).2.2.out.Within limit ∧
      (e.execute p (unbounded w) =
          ((e.execute p w).1, (e.execute p w).2.1, unbounded (e.execute p w).2.2) ∨
        (∃ d, (e.execute p w).1 = some (.fault d) ∧ d.Broken) ∧
          Stands (e.execute p w).2.2 (e.execute p (unbounded w)).2.2) := by
  let start (v : Surface) : Machine := { input := .ofSource v.source, output := v.out }
  have hrun := (Machine.curbs_run limit hb.lifts e.fuel p).curbed (start w) hw
  change Curbed _ _ _ _ (Machine.run e.budget e.fuel p (start (unbounded w))) at hrun
  unfold execute
  dsimp only
  cases hr : Machine.run e.budget e.fuel p (start w) with
  | ok u m =>
    rw [hr] at hrun
    obtain ⟨hm, u', hfree, -⟩ := hrun
    rw [hfree]
    exact ⟨hm, .inl rfl⟩
  | error h m =>
    rw [hr] at hrun
    obtain ⟨hm, hcases⟩ := hrun
    refine ⟨hm, ?_⟩
    rcases hcases with hsame | ⟨hcut, hkeeps⟩
    · rw [hsame]
      exact .inl rfl
    · obtain ⟨d, rfl, hd⟩ := hcut.exists_fault
      right
      constructor
      · exact ⟨d, rfl, hd⟩
      · cases hr' : Machine.run e.budget e.fuel p (start (unbounded w)) with
        | ok u n => rw [hr'] at hkeeps; exact hkeeps
        | error h' n => rw [hr'] at hkeeps; exact hkeeps

theorem after_execute (e : Runner) (p : Program) (w : Surface) : After w (e.execute p w).2.2 := by
  have hafter := Machine.after_run e.budget e.fuel p { input := .ofSource w.source, output := w.out }
  unfold execute
  dsimp only
  cases hr : Machine.run e.budget e.fuel p { input := .ofSource w.source, output := w.out } with
  | ok u m => rw [hr] at hafter; exact hafter
  | error h m => rw [hr] at hafter; exact hafter

theorem draw_out (e : Runner) (name source : Bytes) (d : Diagnostic) (w : Surface) :
    (e.draw name source d w).out = w.out := by
  unfold draw
  split <;> rfl

theorem draw_unbounded (e : Runner) (name source : Bytes) (d : Diagnostic) (w : Surface) :
    e.draw name source d (unbounded w) = unbounded (e.draw name source d w) := by
  unfold draw
  rw [show (unbounded w).err = w.err from rfl]
  split <;> rfl

/-! ## Ending -/

section

variable (e : Runner) (mode : RunMode) (name source : Bytes)

theorem curbed_failed (report : Report) (d : Diagnostic) (hw : w.out.Within limit) :
    RunEnd.Curbed limit (.failed report d, e.draw name source d w)
      (.failed report d, e.draw name source d (unbounded w)) := by
  constructor
  · show (e.draw name source d w).out.Within limit
    rw [draw_out]
    exact hw
  · rw [draw_unbounded]
    exact .inl rfl

/-- A run that a stream failed ends where it is; the other one goes on from there. -/
theorem curbed_cut (report : Report) {d : Diagnostic} (hd : d.Broken) (hw : w.out.Within limit)
    {r : RunEnd × Surface} (hr : Stands w r.2) :
    RunEnd.Curbed limit (.failed report d, e.draw name source d w) r := by
  constructor
  · show (e.draw name source d w).out.Within limit
    rw [draw_out]
    exact hw
  · have hback : After (e.draw name source d w) w := .of_sink_eq (draw_out ..).symm
    exact .inr ⟨⟨report, d, rfl, hd⟩, hback.stands.trans hr⟩

theorem after_draw (d : Diagnostic) (w : Surface) : After w (e.draw name source d w) :=
  .of_sink_eq (draw_out ..)

theorem after_conclude (halt : Option Halt) (steps : Int64) (report : Report) {v : Surface}
    (h : After v w) : After v (e.conclude mode name source halt steps report w).2 := by
  apply h.trans
  unfold conclude
  cases halt with
  | some halt =>
    cases halt with
    | fault d => exact after_draw ..
    | exit code | stuck | outOfFuel => exact .of_sink_eq rfl
  | none =>
    have hafter := Curbs.after_state ((curbing 0).trailer e mode) w
    dsimp only
    cases ht : e.trailer mode w with
    | ok a t => rw [ht] at hafter; exact hafter
    | error d t => rw [ht] at hafter; exact After.trans hafter (after_draw ..)

theorem curbed_conclude (halt : Option Halt) (steps : Int64) (report : Report)
    (hw : w.out.Within limit) :
    RunEnd.Curbed limit (e.conclude mode name source halt steps report w)
      (e.conclude mode name source halt steps report (unbounded w)) := by
  unfold conclude
  cases halt with
  | some halt =>
    cases halt with
    | fault d => exact curbed_failed e name source report d hw
    | exit code | stuck | outOfFuel => exact ⟨hw, .inl rfl⟩
  | none =>
    have htrailer : Curbed limit _ _ (e.trailer mode w) (e.trailer mode (unbounded w)) :=
      ((curbing limit).trailer e mode).curbed w hw
    dsimp only
    cases ht : e.trailer mode w with
    | ok a t =>
      rw [ht] at htrailer
      obtain ⟨hout, a', hfree, -⟩ := htrailer
      rw [hfree]
      exact ⟨hout, .inl rfl⟩
    | error d t =>
      rw [ht] at htrailer
      obtain ⟨hout, hcases⟩ := htrailer
      rcases hcases with hsame | ⟨hd, hkeeps⟩
      · rw [hsame]
        exact curbed_failed e name source report d hout
      · -- The write that was refused here was taken there, and perhaps the next one too.
        apply curbed_cut e name source report hd hout
        cases hfree : e.trailer mode (unbounded w) with
        | ok a v => rw [hfree] at hkeeps; exact hkeeps
        | error d' v =>
          rw [hfree] at hkeeps
          exact Stands.trans hkeeps (after_draw ..).stands

theorem curbed_perform (hb : e.budget.Fair) (loaded : Loaded) (report : Report)
    (hw : w.out.Within limit) :
    RunEnd.Curbed limit (e.perform mode name source loaded report w)
      (e.perform mode name source loaded report (unbounded w)) := by
  obtain ⟨hran, hcases⟩ := curbed_execute hb loaded.program hw
  have hbegun : e.budget.cancelled
      { input := .ofSource (unbounded w).source, output := (unbounded w).out } =
      e.budget.cancelled { input := .ofSource w.source, output := w.out } :=
    hb { input := .ofSource w.source, output := w.out }
  unfold perform
  rw [hbegun]
  generalize (e.budget.cancelled _).isNone = begun
  generalize e.execute loaded.program (unbounded w) = free at hcases
  generalize e.execute loaded.program w = ran at hran hcases
  obtain ⟨halt, steps, u⟩ := ran
  rcases hcases with rfl | ⟨⟨d, hhalt, hd⟩, hmore⟩
  · exact curbed_conclude e mode name source halt steps _ hran
  · -- The program was cut off here, and goes on there.
    cases hhalt
    let events := e.executionEvents name (some (.fault d)) steps begun
    apply curbed_cut e name source _ hd (w := { u with log := u.log ++ events }) hran
    apply hmore.trans
    apply After.stands
    apply after_conclude
    exact .of_sink_eq rfl

theorem after_perform (loaded : Loaded) (report : Report) {v : Surface} (h : After v w) :
    After v (e.perform mode name source loaded report w).2 :=
  after_conclude e mode name source _ _ _ (h.trans (after_execute e loaded.program w))

theorem curbed_proceed (hb : e.budget.Fair) (loaded : Loaded) (cached : Bool)
    (hw : w.out.Within limit) :
    RunEnd.Curbed limit (e.proceed mode name source loaded cached w)
      (e.proceed mode name source loaded cached (unbounded w)) := by
  unfold proceed
  dsimp only
  split
  · exact ⟨hw, .inl rfl⟩
  · exact curbed_perform e mode name source hb loaded _ hw

theorem after_proceed (loaded : Loaded) (cached : Bool) {v : Surface} (h : After v w) :
    After v (e.proceed mode name source loaded cached w).2 := by
  unfold proceed
  dsimp only
  split
  · exact h
  · exact after_perform e mode name source loaded _ h

end

/-- A run on a bounded output goes as it goes without the bound, up to a write that is refused. -/
theorem curbed_run {e : Runner} (hb : e.budget.Fair) (mode : Option RunMode) (name source : Bytes)
    (hw : w.out.Within limit) :
    RunEnd.Curbed limit (e.run mode name source w) (e.run mode name source (unbounded w)) := by
  unfold run
  cases RunMode.usable mode with
  | error why => exact ⟨hw, .inl rfl⟩
  | ok mode =>
    obtain ⟨hcached, hload⟩ := curbed_load e mode source hw
    dsimp only
    generalize e.load mode source (unbounded w) = free at hcached hload
    generalize e.load mode source w = loading at hcached hload
    obtain ⟨cached, read⟩ := loading
    obtain ⟨cached', read'⟩ := free
    cases hcached
    cases read with
    | ok loaded u =>
      obtain ⟨hu, loaded', rfl, rfl⟩ := hload
      exact curbed_proceed e mode name source hb loaded cached hu
    | error d u =>
      obtain ⟨hu, hcases⟩ := hload
      rcases hcases with rfl | ⟨hd, hkeeps⟩
      · exact curbed_failed e name source _ d hu
      · -- A stage could not be shown here; there the run goes on with it.
        apply curbed_cut e name source _ hd hu
        cases read' with
        | ok loaded v =>
          have hrest := after_proceed e mode name source loaded cached (.of_sink_eq (t := v) rfl)
          exact Stands.trans hkeeps hrest.stands
        | error d' v => exact Stands.trans hkeeps (after_draw ..).stands

theorem after_run (e : Runner) (mode : Option RunMode) (name source : Bytes) (w : Surface) :
    After w (e.run mode name source w).2 := by
  unfold run
  cases RunMode.usable mode with
  | error why => exact .of_sink_eq rfl
  | ok mode =>
    have hload := after_load e mode source w
    dsimp only
    generalize e.load mode source w = loading at hload
    obtain ⟨cached, read⟩ := loading
    cases read with
    | ok loaded u => exact after_proceed e mode name source loaded cached hload
    | error d u => exact After.trans hload (after_draw ..)

end Runner

/-! ## What was written -/

namespace RunEnd.Curbed

variable {limit : Nat} {r r' : RunEnd × Surface}

theorem exists_take (h : Curbed limit r r') :
    ∃ k, r.2.out.text = (r'.2.out.chunks.reverse.take k).flatten := by
  have hchunks : r.2.out.chunks <:+ r'.2.out.chunks := by
    rcases h.cases with rfl | ⟨-, hstands⟩
    · exact List.suffix_refl _
    · exact hstands
  -- The writes stand newest first, so what is at the end of one list is at the beginning in order.
  have hprefix : r.2.out.chunks.reverse <+: r'.2.out.chunks.reverse :=
    List.reverse_prefix.2 hchunks
  exact ⟨_, congrArg List.flatten (List.prefix_iff_eq_take.1 hprefix)⟩

theorem text_eq (h : Curbed limit r r') (hkey : r.1.key? ≠ some (utf8 "E0009")) :
    r.2.out.text = r'.2.out.text := by
  rcases h.cases with rfl | ⟨⟨report, d, hr, hd⟩, -⟩
  · rfl
  · refine absurd ?_ hkey
    rw [hr, RunEnd.key?, show d.code = .io from hd]
    rfl

end RunEnd.Curbed
end Scriptlet
