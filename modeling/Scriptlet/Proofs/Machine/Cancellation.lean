import Scriptlet.Proofs.Machine.Termination
import Scriptlet.Proofs.Machine.Ticks

/-!
# Cancellation: runs that are called off

Whether a run is cancelled is looked at before it starts and whenever its counter shows a multiple
of 64. A run that is cancelled once `s` steps are counted goes on to the first step beyond `s` at
which the counter does, if the run gets there, and is stopped by it; up to there it does what it
would have done anyway. So it always ends, even if it would otherwise run for ever.

Steps are told apart by their numbers here. The counter grows with them as long as it does not begin
again.
-/

namespace Scriptlet

/-- The budget without cancellation. -/
def Budget.uncancelled (b : Budget) : Budget := { b with cancelled := fun _ => none }

/-- What the counter shows when the step is counted. -/
def Tick.counter (t : Tick) : Int64 := .ofNat t.number

/-- Cancellation is looked at when the step is counted, and had come about with `s` steps
counted. -/
def Tick.Notices (s : Nat) (t : Tick) : Prop := t.counter % cancelInterval = 0 ∧ s < t.number

/-- The step is within the bound on steps. -/
def Budget.Allows (b : Budget) (t : Tick) : Prop := b.steps ≤ 0 ∨ t.counter ≤ b.steps

/-- The run of the program on the machine, begun before it is cancelled, is cancelled with the given
reason while `s` steps are counted. -/
structure Budget.CancelsAt (b : Budget) (p : Program) (m : Machine) (s : Nat) (reason : Bytes) :
    Prop where
  start : b.cancelled m = none
  ticks : ∀ t, p.Ticks b.uncancelled m t →
    b.cancelled t.machine = if s < t.number then some reason else none

/-- No step of the run, if it is not cancelled, is beyond the bound on steps. -/
def Budget.Suffices (b : Budget) (p : Program) (m : Machine) : Prop :=
  ∀ t, p.Ticks b.uncancelled m t → b.Allows t

/-! ## What stops a run at a tick -/

namespace Tick

variable {b : Budget} {t : Tick} {halt : Halt} {k : Machine}

/-- As long as the counter does not begin again, the ticks that notice are those that it numbers
with a multiple of 64 greater than what it showed. -/
theorem notices_iff {s : Nat} (h : turns s = turns t.number) :
    t.Notices s ↔ t.counter % cancelInterval = 0 ∧ .ofNat s < t.counter := by
  unfold Notices
  rw [← ofNat_lt_ofNat_iff h]
  rfl

theorem not_allows_iff : ¬ b.Allows t ↔ 0 < b.steps ∧ b.steps < t.counter := by
  unfold Budget.Allows
  rw [not_or, Int64.not_le, Int64.not_le]

theorem tick_eq (b : Budget) (t : Tick) :
    Exec.tick b t.span t.before =
      if 0 < b.steps ∧ b.steps < t.counter then
        .error (.fault ⟨.stepLimit b.steps, t.span⟩) t.machine
      else if t.counter % cancelInterval = 0 then
        match b.cancelled t.machine with
        | some reason => .error (.fault ⟨.cancelled reason, t.span⟩) t.machine
        | none => .ok () t.machine
      else .ok () t.machine :=
  Exec.tick_eq b t.span t.before

theorem tick_of_cancelled {reason : Bytes} (hlimit : b.Allows t)
    (hlooks : t.counter % cancelInterval = 0) (hc : b.cancelled t.machine = some reason) :
    Exec.tick b t.span t.before = .error (.fault ⟨.cancelled reason, t.span⟩) t.machine := by
  rw [tick_eq, if_neg fun h => not_allows_iff.2 h hlimit, if_pos hlooks, hc]

/-- A tick within the bound on steps stops a run only if it notices that the run is cancelled. -/
theorem of_tick_error (hlimit : b.Allows t)
    (h : Exec.tick b t.span t.before = .error halt k) :
    t.counter % cancelInterval = 0 ∧
      ∃ reason, b.cancelled t.machine = some reason ∧
        halt = .fault ⟨.cancelled reason, t.span⟩ := by
  rw [tick_eq, if_neg fun h => not_allows_iff.2 h hlimit] at h
  by_cases hlooks : t.counter % cancelInterval = 0
  · rw [if_pos hlooks] at h
    cases hc : b.cancelled t.machine with
    | none => rw [hc] at h; cases h
    | some reason => rw [hc] at h; cases h; exact ⟨hlooks, reason, rfl, rfl⟩
  · rw [if_neg hlooks] at h
    cases h

theorem of_tick_ok (h : Exec.tick b t.span t.before = .ok () k) :
    k = t.machine ∧ b.Allows t ∧
      (t.counter % cancelInterval = 0 → b.cancelled t.machine = none) := by
  rw [tick_eq] at h
  by_cases hlimit : 0 < b.steps ∧ b.steps < t.counter
  · rw [if_pos hlimit] at h
    cases h
  · rw [if_neg hlimit] at h
    have hwithin : b.Allows t :=
      Classical.byContradiction fun hnot => hlimit (not_allows_iff.1 hnot)
    by_cases hlooks : t.counter % cancelInterval = 0
    · rw [if_pos hlooks] at h
      cases hc : b.cancelled t.machine with
      | some reason => rw [hc] at h; cases h
      | none => rw [hc] at h; cases h; exact ⟨rfl, hwithin, fun _ => rfl⟩
    · rw [if_neg hlooks] at h
      cases h
      exact ⟨rfl, hwithin, fun hlooks' => absurd hlooks' hlooks⟩

theorem tick_of_allowed (hlimit : b.Allows t)
    (hc : t.counter % cancelInterval = 0 → b.cancelled t.machine = none) :
    Exec.tick b t.span t.before = .ok () t.machine := by
  rw [tick_eq, if_neg fun h => not_allows_iff.2 h hlimit]
  by_cases hlooks : t.counter % cancelInterval = 0
  · rw [if_pos hlooks, hc hlooks]
  · rw [if_neg hlooks]

end Tick

namespace Budget

/-- A budget that is cancelled at times is narrower than one that never is. -/
theorem narrows_uncancelled (b : Budget) (cancelled : Machine → Option Bytes) :
    { b with cancelled }.Narrows b.uncancelled := by
  refine ⟨rfl, fun span m k h => ?_⟩
  let t : Tick := ⟨span, m, []⟩
  obtain ⟨rfl, hlimit, -⟩ := t.of_tick_ok h
  exact t.tick_of_allowed hlimit fun _ => rfl

end Budget

/-! ## Where a cancelled run is stopped -/

namespace Exec

variable {α : Type} {r r' : EStateM.Result Halt Machine α}

theorem finished_of_fromTick {halt : Halt} (h : halt.FromTick) (k : Machine) :
    finished (.error halt k : EStateM.Result Halt Machine α) = true := by
  cases halt with
  | fault d => rfl
  | exit | stuck | outOfFuel => exact h.elim

theorem finished_of_cutBy {limit : Nat} (h : CutBy limit r) : finished r = true := by
  obtain ⟨halt, k, hhalt, rfl, -⟩ := h
  exact finished_of_fromTick hhalt k

theorem finished_of_shortens (h : Shortens Halt.FromTick Eq r r') (hr : finished r' = true) :
    finished r = true := by
  cases r with
  | ok a k => rfl
  | error halt k =>
    rcases h with hsame | ⟨hcut, -⟩
    · rw [← hsame]
      exact hr
    · exact finished_of_fromTick hcut k

/-- What is not stopped at a tick is the same on the wider budget. -/
theorem eq_of_shortens_of_not_fromTick (h : Shortens Halt.FromTick Eq r r')
    (hr : ∀ halt k, r = .error halt k → ¬ halt.FromTick) : r' = r := by
  cases r with
  | ok a k =>
    obtain ⟨c, hc, rfl⟩ := h
    exact hc
  | error halt k =>
    rcases h with hsame | ⟨hcut, -⟩
    · exact hsame
    · exact absurd hcut (hr halt k rfl)

end Exec

namespace Machine

open Exec

variable {b : Budget} {p : Program} {m k : Machine} {s : Nat} {reason : Bytes} {halt : Halt}
  {n : Nat}

section Cancelled

variable (hcancels : b.CancelsAt p m s reason) (hlimit : b.Suffices p m)
include hcancels hlimit

/-- A run that is stopped at a tick is stopped at one that notices that it is cancelled. -/
theorem exists_notices_of_run (hhalt : halt.FromTick) (h : run b n p m = .error halt k) :
    ∃ t, p.Ticks b.uncancelled m t ∧ t.Notices s ∧
      halt = .fault ⟨.cancelled reason, t.span⟩ ∧ k = t.remains := by
  obtain ⟨t, ht, htick, hk⟩ :=
    exists_tick_of_run (b.narrows_uncancelled b.cancelled) hcancels.start hhalt h
  obtain ⟨hlooks, reason', hreason, hhalt⟩ := Tick.of_tick_error (hlimit t ht) htick
  rw [hcancels.ticks t ht] at hreason
  split at hreason
  · rename_i hs
    cases hreason
    exact ⟨t, ht, ⟨hlooks, hs⟩, hhalt, hk⟩
  · cases hreason

/-- A run goes no further than to a tick that notices that it is cancelled. -/
theorem exists_cutBy_of_notices {t : Tick} (ht : p.Ticks b.uncancelled m t) (hs : t.Notices s) :
    ∃ n, CutBy t.number (run b n p m) := by
  have hc := hcancels.ticks t ht
  rw [if_pos hs.2] at hc
  exact exists_cutBy_run (b.narrows_uncancelled b.cancelled) hcancels.start ht
    (Tick.tick_of_cancelled (hlimit t ht) hs.1 hc)

/-- A run that is cancelled comes to an end. -/
theorem exists_finished_of_cancelsAt : ∃ n, finished (run b n p m) = true := by
  -- Stopped at the next tick that notices, the run ends there or would have ended before.
  let next := 64 * (max s m.steps / 64 + 1)
  let limited : Budget :=
    { b with cancelled := fun k => if k.steps = next then some Budget.overdue else none }
  have hnext : max s m.steps < next := Nat.lt_mul_div_succ _ (by decide)
  have hlooks : Int64.ofNat next % cancelInterval = 0 :=
    (ofNat_mod_cancelInterval next).2 (Nat.mul_mod_right ..)
  have hstops : limited.StopsAt next := by
    intro span k hk l htick
    let t : Tick := ⟨span, k, []⟩
    obtain ⟨-, -, hnone⟩ := t.of_tick_ok htick
    have hcancelled : limited.cancelled t.machine = some Budget.overdue := if_pos hk
    rw [hnone (by rw [Tick.counter, Tick.number, hk, hlooks])] at hcancelled
    cases hcancelled
  have hlimited : limited.Narrows b.uncancelled := b.narrows_uncancelled limited.cancelled
  have hstart : limited.cancelled m = none := if_neg (by omega)
  obtain ⟨n, hn⟩ := exists_finished_run hstops p (show m.steps < next by omega)
  have hshort := shortens_run_of_narrows hlimited hstart rfl n p
  by_cases hstopped : ∃ halt k, run limited n p m = .error halt k ∧ halt.FromTick
  · obtain ⟨halt, k, hr, hhalt⟩ := hstopped
    obtain ⟨t, ht, htick, -⟩ := exists_tick_of_run hlimited hstart hhalt hr
    have hallows : limited.Allows t := hlimit t ht
    obtain ⟨hlooks', reason', hreason, -⟩ := Tick.of_tick_error hallows htick
    have hnumber : t.number = next := by
      refine Decidable.byContradiction fun hne => ?_
      rw [show limited.cancelled t.machine = none from if_neg hne] at hreason
      cases hreason
    have hnotices : t.Notices s := ⟨hlooks', by omega⟩
    obtain ⟨n, hcut⟩ := exists_cutBy_of_notices hcancels hlimit ht hnotices
    exact ⟨n, finished_of_cutBy hcut⟩
  · have hsame := eq_of_shortens_of_not_fromTick hshort fun halt k hr hhalt =>
      hstopped ⟨halt, k, hr, hhalt⟩
    refine ⟨n, finished_of_shortens (shortens_run_of_narrows
      (b.narrows_uncancelled b.cancelled) hcancels.start rfl n p) ?_⟩
    rw [hsame]
    exact hn

end Cancelled
end Machine

/-- Cancellation is prompt and only truncates. A run that is cancelled before it starts does
nothing. A run that is cancelled with `s` steps counted, and for which the bound on steps suffices,
always ends. Either no tick of the run notices that it is cancelled, and it ends as it does without
being cancelled; or it is stopped at the first tick that notices, and the machine is left as the run
has it at this tick, with the calls in progress left. What it has written by then is a beginning of
what it writes without being cancelled. The ticks that notice are those after which the counter
shows a multiple of 64, and one greater than it showed, unless it has begun again in between. -/
theorem cancellation_only_truncates (b : Budget) (p : Program) (m : Machine) :
    (∀ reason, (Fault.cancelled reason).code.key = utf8 "E0008" ∧
      (Fault.cancelled reason).message = utf8 "execution cancelled") ∧
    (∀ reason, b.cancelled m = some reason → ∀ fuel,
      Machine.run b fuel p m = .error (.fault ⟨.cancelled reason, ⟨0, 0⟩⟩) m) ∧
    (∀ s reason, b.CancelsAt p m s reason → b.Suffices p m →
      ∃ r, Machine.EndsIn b p m r ∧
        (Machine.EndsIn b.uncancelled p m r ∧
            (∀ t, p.Ticks b.uncancelled m t → ¬ t.Notices s) ∨
          ∃ t, p.Ticks b.uncancelled m t ∧ t.Notices s ∧
            (∀ t', p.Ticks b.uncancelled m t' → t'.Notices s → t.number ≤ t'.number) ∧
            r = .error (.fault ⟨.cancelled reason, t.span⟩) t.remains) ∧
        ∃ n, ∀ fuel, n ≤ fuel → (stateOf r).output.text <+:
          (stateOf (Machine.run b.uncancelled fuel p m)).output.text) ∧
    ∀ s (t : Tick), turns s = turns t.number →
      (t.Notices s ↔ t.counter % cancelInterval = 0 ∧ .ofNat s < t.counter) := by
  refine ⟨fun _ => ⟨rfl, rfl⟩, fun reason hc fuel => ?_, fun s reason hcancels hlimit => ?_,
    fun s t => Tick.notices_iff⟩
  · rw [Machine.run_eq, hc]
    rfl
  · obtain ⟨n, hn⟩ := Machine.exists_finished_of_cancelsAt hcancels hlimit
    have hends := Machine.endsIn_run hn
    have hshort (fuel : Nat) := Machine.shortens_run_of_narrows
      (b.narrows_uncancelled b.cancelled) hcancels.start
      (show b.uncancelled.cancelled m = none from rfl) fuel p
    -- Any tick that notices would have stopped the run, with no more steps counted than its own.
    have hstop (t : Tick) (ht : p.Ticks b.uncancelled m t) (hs : t.Notices s) :
        Exec.CutBy t.number (Machine.run b n p m) := by
      obtain ⟨n', hcut⟩ := Machine.exists_cutBy_of_notices hcancels hlimit ht hs
      rw [hends.unique (Machine.endsIn_run (Exec.finished_of_cutBy hcut))]
      exact hcut
    refine ⟨Machine.run b n p m, hends, ?_, n, fun fuel hfuel => ?_⟩
    · by_cases hstopped : ∃ halt k, Machine.run b n p m = .error halt k ∧ halt.FromTick
      · obtain ⟨halt, k, hr, hhalt⟩ := hstopped
        obtain ⟨t, ht, hs, rfl, rfl⟩ := Machine.exists_notices_of_run hcancels hlimit hhalt hr
        refine .inr ⟨t, ht, hs, fun t' ht' hs' => ?_, hr⟩
        obtain ⟨halt', k', -, hr', hle⟩ := hstop t' ht' hs'
        cases hr.symm.trans hr'
        rw [Tick.remains, Machine.steps_leaveAll] at hle
        exact hle
      · have hsame := Exec.eq_of_shortens_of_not_fromTick (hshort n) fun halt k hr hhalt =>
          hstopped ⟨halt, k, hr, hhalt⟩
        refine .inl ⟨?_, fun t ht hs => ?_⟩
        · rw [← hsame] at hn ⊢
          exact Machine.endsIn_run hn
        · obtain ⟨halt, k, hhalt, hr, -⟩ := hstop t ht hs
          exact hstopped ⟨halt, k, hr, hhalt⟩
    · rw [← Machine.run_of_le hn hfuel]
      have hprecedes := precedes_of_shortens (hshort fuel)
      exact hprecedes.text_prefix

/-- A loop for ever, begun when the counter is four steps before it begins again and cancelled after
the first step of its own, is stopped by the step that takes the counter to the least number. -/
theorem endless_loop_is_called_off :
    let p : Program := [.loop [] .origin .origin]
    let m : Machine := { steps := 9223372036854775804 }
    let b : Budget := { cancelled := fun k =>
      if 9223372036854775805 < k.steps then some Budget.calledOff else none }
    b.CancelsAt p m 9223372036854775805 Budget.calledOff ∧ b.Suffices p m ∧
      ∃ t, p.Ticks b.uncancelled m t ∧ t.counter = Int64.minValue ∧
        Machine.EndsIn b p m (.error (.fault ⟨.cancelled Budget.calledOff, t.span⟩) t.remains) := by
  intro p m b
  have hcancels : b.CancelsAt p m 9223372036854775805 Budget.calledOff := ⟨rfl, fun _ _ => rfl⟩
  have hlimit : b.Suffices p m := fun _ _ => .inl (Int64.le_refl 0)
  have hr : Machine.run b 9 p m = .error (.fault ⟨.cancelled Budget.calledOff, .origin⟩)
      { steps := 9223372036854775808 } := by
    unfold b m p
    rfl
  have hends := Machine.endsIn_run (b := b) (n := 9) (p := p) (m := m) (by rw [hr]; rfl)
  obtain ⟨r, hr', ⟨-, hnone⟩ | ⟨t, ht, hs, -, rfl⟩, -⟩ :=
    (cancellation_only_truncates b p m).2.2.1 9223372036854775805 Budget.calledOff hcancels hlimit
  · have hhalt : Halt.FromTick (.fault ⟨.cancelled Budget.calledOff, .origin⟩) := .inr ⟨_, rfl⟩
    obtain ⟨t, ht, hs, -⟩ := Machine.exists_notices_of_run hcancels hlimit hhalt hr
    exact absurd hs (hnone t ht)
  · have hsteps := congrArg (fun r => (stateOf r).steps) (hr'.unique hends)
    rw [hr] at hsteps
    have hnumber : t.number = 9223372036854775808 :=
      (Machine.steps_leaveAll _ _).symm.trans hsteps
    refine ⟨hcancels, hlimit, t, ht, ?_, hr'⟩
    rw [Tick.counter, hnumber]
    rfl

end Scriptlet
