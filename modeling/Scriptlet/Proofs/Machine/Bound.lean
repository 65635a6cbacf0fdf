import Scriptlet.Proofs.Machine.Truncation
import Scriptlet.Proofs.Stream.Bound

/-!
# Bound: programs on a bounded output

Of all that a machine can do only writing looks at the bound of its output, and a write that is
refused ends the run. So a program on a bounded output does what it does without the bound, up to
the write that is refused.
-/

namespace Scriptlet

open Writable

instance : Writable Machine where
  sink m := m.output
  withSink m t := { m with output := t }
  sink_withSink _ _ := rfl
  withSink_withSink _ _ _ := rfl

/-- A stream did not do what was asked of it. -/
def Halt.Broken : Halt → Prop
  | .fault d => d.code = .io
  | .exit _ | .stuck | .outOfFuel => False

/-- The second budget decides on a machine with its bound lifted as the first does on the one with
the bound. -/
structure Budget.Lifts (b b' : Budget) : Prop where
  steps : b'.steps = b.steps
  depth : b'.depth = b.depth
  cancelled : ∀ m : Machine, b'.cancelled (unbounded m) = b.cancelled m

/-- Whether a run is cancelled does not depend on whether its output is bounded. -/
def Budget.Fair (b : Budget) : Prop :=
  ∀ m : Machine, b.cancelled (unbounded m) = b.cancelled m

theorem Budget.Fair.lifts {b : Budget} (h : b.Fair) : b.Lifts b := ⟨rfl, rfl, h⟩

theorem Budget.exists_lifts (b : Budget) : ∃ b₀ : Budget, b₀.Lifts b :=
  ⟨{ b with cancelled := fun m => b.cancelled (unbounded m) }, rfl, rfl, fun _ => rfl⟩

namespace Exec

variable {α β : Type} {limit : Nat} {P : α → β → Prop}

theorem write_eq (span : Span) (text : Bytes) (m : Machine) :
    write span text m = match m.output.write text with
      | (.ok _, t) => .ok () { m with output := t }
      | (.error reason, t) => .error (.fault ⟨.writeFailed reason, span⟩) { m with output := t } := by
  unfold write
  rw [bind_eq_of_ok (show (get : Exec Machine) m = .ok m m from rfl)]
  cases m.output.write text with
  | mk taken t =>
    cases taken with
    | ok u => rfl
    | error reason => rfl

theorem curbs_write (span : Span) (text : Bytes) :
    Curbs limit Halt.Broken Eq (write span text) (write span text) :=
  .write (write_eq span text) fun _ => rfl

theorem curbs_readLine (span : Span) :
    Curbs limit Halt.Broken Eq (readLine span) (readLine span) := by
  have hread (m : Machine) : readLine span m = match m.input.readLine with
      | (.ok text, rest) => .ok text { m with input := rest }
      | (.error reason, rest) =>
        .error (.fault ⟨.readFailed reason, span⟩) { m with input := rest } := by
    unfold readLine
    rw [bind_eq_of_ok (show (get : Exec Machine) m = .ok m m from rfl)]
    cases m.input.readLine with
    | mk line rest =>
      cases line with
      | ok text => rfl
      | error reason => rfl
  have hidle (m : Machine) : Ends (readLine span m) (fun _ n => sink n = sink m)
      (fun _ n => sink n = sink m) := by
    rw [hread]
    split <;> rfl
  apply Curbs.of_idle hidle hidle
  intro m
  rw [hread, hread, show (unbounded m).input = m.input from rfl]
  split <;> rfl

theorem curbs_tick {b b' : Budget} (hb : b.Lifts b') (span : Span) :
    Curbs limit Halt.Broken Eq (tick b span) (tick b' span) := by
  have hidle (b : Budget) (m : Machine) : Ends (tick b span m) (fun _ n => sink n = sink m)
      (fun _ n => sink n = sink m) := by
    rw [tick_eq]
    split
    · rfl
    · split
      · split <;> rfl
      · rfl
  apply Curbs.of_idle (hidle b) (hidle b')
  intro m
  have hcancelled : b'.cancelled { unbounded m with steps := m.steps + 1 } =
      b.cancelled { m with steps := m.steps + 1 } := hb.cancelled { m with steps := m.steps + 1 }
  rw [tick_eq, tick_eq, hb.steps, show (unbounded m).steps = m.steps from rfl, hcancelled]
  split
  · rfl
  · split
    · split <;> rfl
    · rfl

theorem curbs_checkDepth {b b' : Budget} (hb : b.Lifts b') (span : Span) :
    Curbs limit Halt.Broken Eq (checkDepth b span) (checkDepth b' span) := by
  have hidle (b : Budget) (m : Machine) : Ends (checkDepth b span m) (fun _ n => sink n = sink m)
      (fun _ n => sink n = sink m) := by
    rw [checkDepth_eq]
    split <;> rfl
  apply Curbs.of_idle (hidle b) (hidle b')
  intro m
  rw [checkDepth_eq, checkDepth_eq, hb.depth, show (unbounded m).depth = m.depth from rfl]
  split <;> rfl

theorem curbs_declare (name : Bytes) (v : Value) :
    Curbs limit Halt.Broken Eq (modify (Machine.declare name v) : Exec PUnit)
      (modify (Machine.declare name v)) := by
  apply Curbs.modify
  · intro m
    unfold Machine.declare
    split <;> rfl
  · intro m
    unfold Machine.declare
    rw [show (unbounded m).locals = m.locals from rfl]
    split <;> rfl

theorem curbs_assign (name : Bytes) (v : Value) :
    Curbs limit Halt.Broken Eq (modify (Machine.assign name v) : Exec PUnit)
      (modify (Machine.assign name v)) := by
  apply Curbs.modify
  · intro m
    unfold Machine.assign
    split
    · rfl
    · split <;> rfl
  · intro m
    unfold Machine.assign
    rw [show (unbounded m).locals = m.locals from rfl]
    split
    · rfl
    · split <;> rfl

theorem inCall_eq (own : Scope) (x : Exec α) (m : Machine) :
    inCall own x m = onState (fun k => { k with locals := m.locals, depth := k.depth - 1 })
      (x { m with locals := some own, depth := m.depth + 1 }) := by
  unfold inCall
  cases x { m with locals := some own, depth := m.depth + 1 } with
  | ok a k => rfl
  | error e k => rfl

theorem curbs_inCall {x : Exec α} {y : Exec β} (h : Curbs limit Halt.Broken P x y) (own : Scope) :
    Curbs limit Halt.Broken P (inCall own x) (inCall own y) := by
  -- Neither entering the call nor putting the caller's variables back touches the output.
  constructor
  · intro m
    rw [inCall_eq, Ends.onState_iff]
    exact h.after { m with locals := some own, depth := m.depth + 1 }
  · intro m hm
    rw [inCall_eq, inCall_eq]
    have hcurbed := h.curbed { m with locals := some own, depth := m.depth + 1 } hm
    exact hcurbed.onState (fun _ => rfl) fun _ => rfl

/-- Programs do on a bounded output what they do without the bound, up to a write that is refused. -/
def curbing (limit : Nat) {b b' : Budget} (hb : b.Lifts b') : Congruence id b b' where
  Rel P x y := Curbs limit Halt.Broken P x y
  pure h := .pure h
  bind hx hp := .bind hx hp
  stuck := .throw _
  fail _ _ := .throw _
  look := .get (fun m => ⟨m.sameNames_id.slot, m.sameNames_id.function⟩) fun m =>
    ⟨m, m.sameNames_id⟩
  write := curbs_write
  readLine := curbs_readLine
  exit _ := .throw _
  tick := curbs_tick hb
  checkDepth := curbs_checkDepth hb
  declare := curbs_declare
  assign := curbs_assign
  define name g := by
    rw [g.respan_id]
    exact .modify (fun _ => rfl) fun _ => rfl
  inCall own h := curbs_inCall h own

end Exec

namespace Machine

open Exec

theorem curbs_run (limit : Nat) {b b' : Budget} (hb : b.Lifts b') (n : Nat) (p : Program) :
    Curbs limit Halt.Broken Eq (run b n p) (run b' n p) := by
  have hblock := ((curbing limit hb).agree (.throw _) n).block p
  rw [Stmt.allRespan_id] at hblock
  have hbody : Curbs limit Halt.Broken Eq (do discard (block b n p) : Exec Unit)
      (do discard (block b' n p) : Exec Unit) := .bind hblock fun _ _ _ => .pure rfl
  -- Whether the run starts at all is decided alike on both sides.
  constructor
  · intro m
    rw [run_eq]
    cases b'.cancelled m with
    | some reason => exact .of_sink_eq rfl
    | none => exact hbody.after m
  · intro m hm
    rw [run_eq, run_eq, hb.cancelled m]
    cases b.cancelled m with
    | some reason => exact ⟨hm, .inl rfl⟩
    | none => exact hbody.curbed m hm

theorem after_run (b : Budget) (n : Nat) (p : Program) (m : Machine) :
    Ends (run b n p m) (fun _ k => After m k) (fun _ k => After m k) := by
  -- Any budget is that of the free run beside some bounded one.
  obtain ⟨b₀, hb⟩ := b.exists_lifts
  exact (curbs_run 0 hb n p).after_state m

end Machine
end Scriptlet
