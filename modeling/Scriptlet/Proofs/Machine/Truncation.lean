import Scriptlet.Proofs.Machine.Agreement
import Scriptlet.Proofs.Machine.Counter

/-!
# Truncation: what a smaller budget leaves out

Steps are only ever counted up and writes are only ever added, so of two moments of a run the
earlier one precedes the later. A run that is given less, fuel or budget, does what a run that is
given more does, up to the point where it has to give up; it ends the same if it never gets there.
So there is one outcome of a program on a machine, whatever the fuel, and the budget decides only
how much of a run is seen.
-/

namespace Scriptlet

/-! ## Outcomes -/

/-- The state that an action leaves, however it ends. -/
def stateOf {ε σ α : Type} : EStateM.Result ε σ α → σ
  | .ok _ s => s
  | .error _ s => s

/-- The halt is for want of steps or of calls that may be in progress. -/
def Halt.overBudget : Halt → Bool
  | .fault d =>
    match d.fault with
    | .stepLimit _ | .callDepth _ => true
    | _ => false
  | .exit _ | .stuck | .outOfFuel => false

/-- The run was stopped for want of steps or of calls. -/
def overBudget {α : Type} : EStateM.Result Halt Machine α → Bool
  | .ok _ _ => false
  | .error h _ => h.overBudget

/-- The run was followed to its end. -/
def finished {α : Type} : EStateM.Result Halt Machine α → Bool
  | .error .outOfFuel _ => false
  | .ok _ _ | .error _ _ => true

/-- The program ends on the machine with the given outcome: it is the same for every amount of fuel
from some amount on. -/
structure Machine.EndsIn (b : Budget) (p : Program) (m : Machine)
    (r : EStateM.Result Halt Machine Unit) : Prop where
  finished : finished r = true
  fuel : ∃ n, ∀ fuel, n ≤ fuel → Machine.run b fuel p m = r

/-! ## Earlier and later -/

namespace Machine

/-- `n` is at least as far on as `m`: no fewer steps were counted, and what was written still
stands. -/
structure Precedes (m n : Machine) : Prop where
  steps : m.steps ≤ n.steps
  chunks : m.output.chunks <:+ n.output.chunks

namespace Precedes

theorem refl (m : Machine) : m.Precedes m := ⟨Nat.le_refl _, List.suffix_refl _⟩

theorem trans {m n o : Machine} (h : m.Precedes n) (h' : n.Precedes o) : m.Precedes o :=
  ⟨Nat.le_trans h.steps h'.steps, h.chunks.trans h'.chunks⟩

/-- Neither steps nor writes changed. -/
theorem of_eq {m n : Machine} (hs : n.steps = m.steps) (ho : n.output = m.output) :
    m.Precedes n :=
  ⟨Nat.le_of_eq hs.symm, ho ▸ List.suffix_refl _⟩

theorem text_prefix {m n : Machine} (h : m.Precedes n) : m.output.text <+: n.output.text := by
  obtain ⟨later, hlater⟩ := h.chunks
  refine ⟨later.reverse.flatten, ?_⟩
  unfold Sink.text
  rw [← hlater, List.reverse_append, List.flatten_append]

end Precedes

theorem precedes_declare (name : Bytes) (v : Value) (m : Machine) :
    m.Precedes (m.declare name v) := by
  unfold declare
  split <;> exact .of_eq rfl rfl

theorem precedes_assign (name : Bytes) (v : Value) (m : Machine) :
    m.Precedes (m.assign name v) := by
  unfold assign
  split
  · exact .of_eq rfl rfl
  · split <;> exact .of_eq rfl rfl

end Machine

namespace Exec

open Machine

variable {α β γ : Type} {P : α → Prop} {Q : β → Prop}

/-! ## Growth -/

/-- However the action ends, its machine is further on; and what it gives satisfies `P`. -/
def Grows (P : α → Prop) (x : Exec α) : Prop :=
  ∀ m, Ends (x m) (fun a n => P a ∧ m.Precedes n) (fun _ n => m.Precedes n)

namespace Grows

theorem pure {a : α} (h : P a) : Grows P (pure a : Exec α) := fun m => ⟨h, .refl m⟩

theorem throw (h : Halt) : Grows P (throw h : Exec α) := fun m => .refl m

theorem fail (fault : Fault) (span : Span) : Grows P (fail fault span : Exec α) := throw _

theorem get {P : Machine → Prop} (h : ∀ m, P m) : Grows P (get : Exec Machine) :=
  fun m => ⟨h m, .refl m⟩

theorem modify {P : PUnit → Prop} {f : Machine → Machine} (hP : P ⟨⟩)
    (h : ∀ m : Machine, m.Precedes (f m)) : Grows P (modify f : Exec PUnit) := fun m => ⟨hP, h m⟩

theorem bind {x : Exec α} {f : α → Exec β} (hx : Grows P x) (hf : ∀ a, P a → Grows Q (f a)) :
    Grows Q (x >>= f) := by
  intro m
  rw [Ends.bind_iff]
  refine (hx m).mono (fun a n hn => ?_) (fun _ _ hn => hn)
  exact (hf a hn.1 n).mono (fun _ o ho => ⟨ho.1, hn.2.trans ho.2⟩) (fun _ o ho => hn.2.trans ho)

theorem inCall {x : Exec α} (h : Grows P x) (own : Scope) : Grows P (inCall own x) := by
  intro m
  have hx := h { m with locals := some own, depth := m.depth + 1 }
  unfold Exec.inCall
  cases hr : x { m with locals := some own, depth := m.depth + 1 } with
  | ok a n =>
    obtain ⟨ha, hn⟩ := hx.of_ok hr
    exact ⟨ha, hn.steps, hn.chunks⟩
  | error e n =>
    have hn := hx.of_error hr
    exact ⟨hn.steps, hn.chunks⟩

end Grows

theorem grows_tick (b : Budget) (span : Span) : Grows (fun _ => True) (tick b span) := by
  refine Grows.bind (Grows.modify (P := fun _ => True) trivial fun m => ?_) fun _ _ => ?_
  · exact ⟨Nat.le_succ _, List.suffix_refl _⟩
  refine Grows.bind (Grows.get (P := fun _ => True) fun _ => trivial) fun m _ => ?_
  split
  · exact Grows.fail _ _
  · split
    · split
      · exact Grows.fail _ _
      · exact Grows.pure trivial
    · exact Grows.pure trivial

theorem grows_write (span : Span) (text : Bytes) : Grows (fun _ => True) (write span text) := by
  intro m
  have hchunks := Sink.chunks_write m.output text
  unfold write
  rw [Ends.bind_iff, Ends.get_iff]
  generalize m.output.write text = written at hchunks
  obtain ⟨taken, sink⟩ := written
  dsimp only
  rw [Ends.bind_iff, Ends.modify_iff]
  cases taken with
  | ok u => exact ⟨trivial, Nat.le_refl _, hchunks⟩
  | error reason => exact ⟨Nat.le_refl _, hchunks⟩

theorem grows_readLine (span : Span) : Grows (fun _ => True) (readLine span) := by
  refine Grows.bind (Grows.get (P := fun _ => True) fun _ => trivial) fun m _ => ?_
  refine Grows.bind (P := fun _ => True) (Grows.modify trivial fun m => .of_eq rfl rfl)
    fun _ _ => ?_
  split
  · exact Grows.pure trivial
  · exact Grows.fail _ _

theorem grows_checkDepth (b : Budget) (span : Span) :
    Grows (fun _ => True) (checkDepth b span) := by
  refine Grows.bind (Grows.get (P := fun _ => True) fun _ => trivial) fun m _ => ?_
  split
  · exact Grows.fail _ _
  · exact Grows.pure trivial

theorem Grows.mono {P' : α → Prop} {x : Exec α} (h : Grows P x) (hP : ∀ a, P a → P' a) :
    Grows P' x :=
  fun m => (h m).mono (fun a _ ha => ⟨hP a ha.1, ha.2⟩) (fun _ _ h => h)

end Exec

theorem Machine.sameNames_id (m : Machine) : m.SameNames id m := by
  refine ⟨fun name => rfl, fun name => ?_⟩
  rw [show Function.respan id = id from funext Function.respan_id, Option.map_id]
  rfl

namespace Exec

open Machine

/-- Machines only move on, compared with themselves. -/
def growth (b : Budget) : Congruence id b b where
  Rel P x _ := Grows (fun a => ∃ c, P a c) x
  pure h := Grows.pure ⟨_, h⟩
  bind hx hp := Grows.bind hx fun a ⟨c, hc⟩ => hp a c hc
  stuck := Grows.throw _
  fail _ span := Grows.fail _ span
  look := Grows.get fun m => ⟨m, m.sameNames_id⟩
  write span text := (grows_write span text).mono fun a _ => ⟨a, rfl⟩
  readLine span := (grows_readLine span).mono fun a _ => ⟨a, rfl⟩
  exit _ := Grows.throw _
  tick span := (grows_tick b span).mono fun a _ => ⟨a, rfl⟩
  checkDepth span := (grows_checkDepth b span).mono fun a _ => ⟨a, rfl⟩
  declare name v := Grows.modify ⟨_, rfl⟩ (precedes_declare name v)
  assign name v := Grows.modify ⟨_, rfl⟩ (precedes_assign name v)
  define _ _ := Grows.modify ⟨_, rfl⟩ fun _ => .of_eq rfl rfl
  inCall own h := Grows.inCall h own

theorem growthAt (b : Budget) (n : Nat) : AgreeAt (growth b) n n :=
  (growth b).agree (Grows.throw _) n

/-! ## Truncation -/

variable {α β γ δ : Type}

/-- The first outcome is the second, up to `P` between the values, or it was cut short and the
second run went further on from there. -/
def Shortens (cut : Halt → Prop) (P : α → β → Prop) (r : EStateM.Result Halt Machine α)
    (r' : EStateM.Result Halt Machine β) : Prop :=
  match r with
  | .ok a k => ∃ c, r' = .ok c k ∧ P a c
  | .error h k => r' = .error h k ∨ cut h ∧ k.Precedes (stateOf r')

/-- The second action grows, and the first does the same unless it is cut short. -/
structure Truncates (cut : Halt → Prop) (P : α → β → Prop) (x : Exec α) (y : Exec β) : Prop where
  grows : Grows (fun c => ∃ a, P a c) y
  shortens : ∀ m, Shortens cut P (x m) (y m)

theorem precedes_stateOf {P : α → Prop} {x : Exec α} (h : Grows P x) (m : Machine) :
    m.Precedes (stateOf (x m)) := by
  have hx := h m
  cases hr : x m with
  | ok a n => exact (hx.of_ok hr).2
  | error e n => exact hx.of_error hr

namespace Truncates

variable {cut : Halt → Prop} {P : α → β → Prop} {Q : γ → δ → Prop}

theorem pure {a : α} {c : β} (h : P a c) :
    Truncates cut P (pure a : Exec α) (pure c : Exec β) :=
  ⟨Grows.pure ⟨a, h⟩, fun _ => ⟨c, rfl, h⟩⟩

theorem throw (h : Halt) : Truncates cut P (throw h : Exec α) (throw h : Exec β) :=
  ⟨Grows.throw h, fun _ => .inl rfl⟩

theorem bind {x : Exec α} {y : Exec β} {p : α → Exec γ} {q : β → Exec δ}
    (hx : Truncates cut P x y) (hp : ∀ a c, P a c → Truncates cut Q (p a) (q c)) :
    Truncates cut Q (x >>= p) (y >>= q) := by
  have hq (c : β) (hc : ∃ a, P a c) : Grows (fun d => ∃ e, Q e d) (q c) := by
    obtain ⟨a, ha⟩ := hc
    exact (hp a c ha).grows
  refine ⟨hx.grows.bind hq, fun m => ?_⟩
  have hshort := hx.shortens m
  cases hr : x m with
  | ok a k =>
    rw [hr] at hshort
    obtain ⟨c, hc, hac⟩ := hshort
    rw [bind_eq_of_ok hr, bind_eq_of_ok hc]
    exact (hp a c hac).shortens k
  | error h k =>
    rw [hr] at hshort
    rw [bind_eq_of_error hr]
    rcases hshort with hsame | ⟨hcut, hfurther⟩
    · exact .inl (bind_eq_of_error hsame)
    · -- The second run has gone on by itself, and moves only further from where it stands.
      refine .inr ⟨hcut, ?_⟩
      have hgrows := hx.grows m
      cases hr' : y m with
      | ok c n =>
        rw [hr'] at hfurther
        rw [bind_eq_of_ok hr']
        exact hfurther.trans (precedes_stateOf (hq c (hgrows.of_ok hr').1) n)
      | error h' n =>
        rw [hr'] at hfurther
        rw [bind_eq_of_error hr']
        exact hfurther

/-- An action that is not cut short does the same on both sides. -/
theorem of_self {x : Exec α} {P : α → α → Prop} (hx : Grows (fun _ => True) x) (hP : ∀ a, P a a) :
    Truncates cut P x x := by
  refine ⟨hx.mono fun a _ => ⟨a, hP a⟩, fun m => ?_⟩
  cases x m with
  | ok a k => exact ⟨a, rfl, hP a⟩
  | error h k => exact .inl rfl

theorem inCall {x : Exec α} {y : Exec β} (h : Truncates cut P x y) (own : Scope) :
    Truncates cut P (inCall own x) (inCall own y) := by
  refine ⟨h.grows.inCall own, fun m => ?_⟩
  -- Putting the caller's variables back touches neither the count nor what was written.
  have hshort := h.shortens { m with locals := some own, depth := m.depth + 1 }
  unfold Exec.inCall
  cases hr : x { m with locals := some own, depth := m.depth + 1 } with
  | ok a k =>
    rw [hr] at hshort
    obtain ⟨c, hc, hac⟩ := hshort
    rw [hc]
    exact ⟨c, rfl, hac⟩
  | error e k =>
    rw [hr] at hshort
    rcases hshort with hsame | ⟨hcut, hfurther⟩
    · rw [hsame]
      exact .inl rfl
    · refine .inr ⟨hcut, ?_⟩
      cases hr' : y { m with locals := some own, depth := m.depth + 1 } with
      | ok c n => rw [hr'] at hfurther; exact ⟨hfurther.steps, hfurther.chunks⟩
      | error e' n => rw [hr'] at hfurther; exact ⟨hfurther.steps, hfurther.chunks⟩

end Truncates

/-- Where counting a step and entering a call are only cut short, so is everything. -/
def truncation (cut : Halt → Prop) (b b' : Budget)
    (htick : ∀ span, Truncates cut Eq (tick b span) (tick b' span))
    (hdepth : ∀ span, Truncates cut Eq (checkDepth b span) (checkDepth b' span)) :
    Congruence id b b' where
  Rel P x y := Truncates cut P x y
  pure h := .pure h
  bind hx hp := .bind hx hp
  stuck := .throw _
  fail _ span := .throw _
  look := .of_self (.get fun _ => trivial) fun m => m.sameNames_id
  write span text := .of_self (grows_write span text) fun _ => rfl
  readLine span := .of_self (grows_readLine span) fun _ => rfl
  exit n := .throw _
  tick span := htick span
  checkDepth span := hdepth span
  declare name v := .of_self (.modify trivial (precedes_declare name v)) fun _ => rfl
  assign name v := .of_self (.modify trivial (precedes_assign name v)) fun _ => rfl
  define name g := by
    rw [g.respan_id]
    exact .of_self (.modify trivial fun m => .of_eq rfl rfl) fun _ => rfl
  inCall own h := h.inCall own

section Fuel

variable {cut : Halt → Prop} {b b' : Budget}
  (htick : ∀ span, Truncates cut Eq (tick b span) (tick b' span))
  (hdepth : ∀ span, Truncates cut Eq (checkDepth b span) (checkDepth b' span))

/-- A run with no fuel is cut short at once. -/
theorem truncates_zero (hcut : cut .outOfFuel) (n : Nat) :
    AgreeAt (truncation cut b b' htick hdepth) 0 n := by
  have ih := growthAt b' n
  have idle {α : Type} {y : Exec α} (hy : Grows (fun a => ∃ c, a = c) y) :
      Truncates cut Eq (throw .outOfFuel) y :=
    ⟨hy.mono fun a _ => ⟨a, rfl⟩, fun m => .inr ⟨hcut, precedes_stateOf hy m⟩⟩
  -- The other run, compared with itself, only moves on from where this one gives up.
  constructor
  · intro hint e; rw [eval_zero]; exact idle (ih.eval hint _)
  · intro t es; rw [evalItems_zero]; exact idle (ih.items t _)
  · intro hints es; rw [evalArgs_zero]; exact idle (ih.args hints _)
  · intro wanted name nameSpan args span; rw [call_zero]; exact idle (ih.call wanted name _ _ _)
  · intro s; rw [stmt_zero]; exact idle (ih.stmt _)
  · intro ss; rw [block_zero]; exact idle (ih.block _)
  · intro body span; rw [rounds_zero]; exact idle (ih.rounds _ _)

theorem truncates_add (hcut : cut .outOfFuel) (n d : Nat) :
    AgreeAt (truncation cut b b' htick hdepth) n (n + d) := by
  induction n with
  | zero => exact truncates_zero htick hdepth hcut _
  | succ n ih =>
    rw [Nat.succ_add]
    exact ih.succ

end Fuel

/-- Nothing but want of fuel cuts a step short that is counted on one and the same budget. -/
theorem truncates_tick_self (b : Budget) (span : Span) :
    Truncates (fun h => h = .outOfFuel) Eq (tick b span) (tick b span) :=
  .of_self (grows_tick b span) fun _ => rfl

theorem truncates_checkDepth_self (b : Budget) (span : Span) :
    Truncates (fun h => h = .outOfFuel) Eq (checkDepth b span) (checkDepth b span) :=
  .of_self (grows_checkDepth b span) fun _ => rfl

/-- A run with more fuel goes on where want of it cuts the other short. -/
theorem truncates_fuel (b : Budget) (n d : Nat) :
    AgreeAt (truncation (fun h => h = .outOfFuel) b b (truncates_tick_self b)
      (truncates_checkDepth_self b)) n (n + d) :=
  truncates_add (truncates_tick_self b) (truncates_checkDepth_self b) rfl n d

/-- What was followed to its end is not cut short. -/
theorem eq_of_shortens {r r' : EStateM.Result Halt Machine α}
    (h : Shortens (fun h => h = .outOfFuel) Eq r r') (hr : finished r = true) : r' = r := by
  cases r with
  | ok a k =>
    obtain ⟨c, hc, rfl⟩ := h
    exact hc
  | error halt k =>
    rcases h with hsame | ⟨rfl, -⟩
    · exact hsame
    · cases hr

end Exec

theorem precedes_of_shortens {cut : Halt → Prop} {α : Type} {P : α → α → Prop}
    {r r' : EStateM.Result Halt Machine α} (h : Exec.Shortens cut P r r') :
    (stateOf r).Precedes (stateOf r') := by
  cases r with
  | ok a k =>
    obtain ⟨c, hc, -⟩ := h
    rw [hc]
    exact .refl k
  | error halt k =>
    rcases h with hsame | ⟨-, hfurther⟩
    · rw [hsame]
      exact .refl k
    · exact hfurther

/-! ## Runs -/

/-- Want of fuel is not want of steps. -/
theorem overBudget_of_unfinished {α : Type} {r : EStateM.Result Halt Machine α}
    (h : finished r = false) : overBudget r = false := by
  cases r with
  | ok a m => cases h
  | error halt m =>
    cases halt with
    | outOfFuel => rfl
    | fault | exit | stuck => cases h

namespace Machine

open Exec

theorem run_eq (b : Budget) (fuel : Nat) (p : Program) (m : Machine) :
    run b fuel p m = match b.cancelled m with
      | some reason => .error (.fault ⟨.cancelled reason, .origin⟩) m
      | none => (do discard (block b fuel p) : Exec Unit) m := by
  unfold run
  rw [bind_eq_of_ok (show (get : Exec Machine) m = .ok m m from rfl)]
  cases b.cancelled m with
  | none => rfl
  | some reason => rfl

/-- A run that is not cancelled from the start is a run of the block, whose flow is dropped. -/
theorem run_of_not_cancelled {b : Budget} {p : Program} {m : Machine} {n : Nat}
    (h : b.cancelled m = none) :
    run b n p m = match block b n p m with
      | .ok _ k => .ok () k
      | .error halt k => .error halt k := by
  rw [run_eq, h]
  cases hr : block b n p m with
  | ok flow k => exact bind_eq_of_ok hr
  | error halt k => exact bind_eq_of_error hr

/-- Two runs of a program compare as the blocks do. -/
theorem shortens_run {cut : Halt → Prop} {b b' : Budget} {n n' : Nat} {p : Program}
    (hc : b'.cancelled = b.cancelled) (h : Truncates cut Eq (block b n p) (block b' n' p))
    (m : Machine) : Shortens cut Eq (run b n p m) (run b' n' p m) := by
  rw [run_eq, run_eq, hc]
  cases b.cancelled m with
  | some reason => exact .inl rfl
  | none =>
    have hbody : Truncates cut Eq (do discard (block b n p) : Exec Unit)
        (do discard (block b' n' p) : Exec Unit) :=
      .bind h fun _ _ _ => .pure rfl
    exact hbody.shortens m

/-- More fuel changes nothing about a run that was followed to its end. -/
theorem run_of_le {b : Budget} {n n' : Nat} {p : Program} {m : Machine}
    (h : finished (run b n p m) = true) (hn : n ≤ n') : run b n' p m = run b n p m := by
  obtain ⟨d, rfl⟩ := Nat.exists_eq_add_of_le hn
  -- Only want of fuel cuts the shorter run short, and that is what `h` rules out.
  have hblock := (truncates_fuel b n d).block p
  rw [Stmt.allRespan_id] at hblock
  exact eq_of_shortens (shortens_run rfl hblock m) h

/-- A run that was followed to its end shows the outcome. -/
theorem endsIn_run {b : Budget} {n : Nat} {p : Program} {m : Machine}
    (h : finished (run b n p m) = true) : EndsIn b p m (run b n p m) :=
  ⟨h, n, fun _ hn => run_of_le h hn⟩

theorem EndsIn.exists_run {b : Budget} {p : Program} {m : Machine}
    {r : EStateM.Result Halt Machine Unit} (h : EndsIn b p m r) : ∃ n, run b n p m = r := by
  obtain ⟨n, hn⟩ := h.fuel
  exact ⟨n, hn n (Nat.le_refl n)⟩

theorem EndsIn.unique {b : Budget} {p : Program} {m : Machine}
    {r r' : EStateM.Result Halt Machine Unit} (h : EndsIn b p m r) (h' : EndsIn b p m r') :
    r = r' := by
  obtain ⟨n, hn⟩ := h.fuel
  obtain ⟨n', hn'⟩ := h'.fuel
  rw [← hn (max n n') (Nat.le_max_left ..), hn' (max n n') (Nat.le_max_right ..)]

end Machine

/-! ## Budgets -/

/-- The second budget allows at least as much: as many steps, no bound being the largest, and as
many calls; and it is cancelled on the same machines. -/
structure Budget.Within (b b' : Budget) : Prop where
  steps : b'.steps ≤ 0 ∨ 0 < b.steps ∧ b.steps ≤ b'.steps
  depth : b.depth ≤ b'.depth
  cancelled : b'.cancelled = b.cancelled

namespace Exec

open Machine

variable {b b' : Budget}

theorem tick_eq (b : Budget) (span : Span) (m : Machine) :
    tick b span m =
      if 0 < b.steps ∧ b.steps < .ofNat (m.steps + 1) then
        .error (.fault ⟨.stepLimit b.steps, span⟩) { m with steps := m.steps + 1 }
      else if .ofNat (m.steps + 1) % cancelInterval = 0 then
        match b.cancelled { m with steps := m.steps + 1 } with
        | some reason => .error (.fault ⟨.cancelled reason, span⟩) { m with steps := m.steps + 1 }
        | none => .ok () { m with steps := m.steps + 1 }
      else .ok () { m with steps := m.steps + 1 } := by
  unfold tick
  rw [bind_eq_of_ok (show (modify fun m => { m with steps := m.steps + 1 } : Exec PUnit) m =
    .ok ⟨⟩ { m with steps := m.steps + 1 } from rfl)]
  rw [bind_eq_of_ok (show (get : Exec Machine) { m with steps := m.steps + 1 } =
    .ok { m with steps := m.steps + 1 } { m with steps := m.steps + 1 } from rfl)]
  unfold counter
  dsimp only
  split
  · rfl
  · split
    · split <;> simp only [*] <;> rfl
    · rfl

theorem stateOf_tick (b : Budget) (span : Span) (m : Machine) :
    stateOf (tick b span m) = { m with steps := m.steps + 1 } := by
  rw [tick_eq]
  split
  · rfl
  · split
    · split <;> rfl
    · rfl

/-- A step beyond the smaller budget is where the smaller run is cut short. -/
theorem truncates_tick (h : b.Within b') (span : Span) :
    Truncates (fun halt => halt.overBudget = true) Eq (tick b span) (tick b' span) := by
  refine ⟨(grows_tick b' span).mono fun a _ => ⟨a, rfl⟩, fun m => ?_⟩
  by_cases hlimit : 0 < b.steps ∧ b.steps < .ofNat (m.steps + 1)
  · rw [tick_eq b, if_pos hlimit]
    refine .inr ⟨rfl, ?_⟩
    rw [stateOf_tick]
    exact .refl _
  · -- Within the smaller budget the step is within the larger one too.
    have hlimit' : ¬ (0 < b'.steps ∧ b'.steps < .ofNat (m.steps + 1)) := by
      rintro ⟨hpos, hbeyond⟩
      rcases h.steps with hnone | ⟨hpos', hle⟩
      · exact Int64.not_lt.2 hnone hpos
      · exact hlimit ⟨hpos', Int64.lt_of_le_of_lt hle hbeyond⟩
    have hsame : tick b' span m = tick b span m := by
      rw [tick_eq b, tick_eq b', if_neg hlimit, if_neg hlimit', h.cancelled]
    rw [hsame]
    cases tick b span m with
    | ok a k => exact ⟨a, rfl, rfl⟩
    | error e k => exact .inl rfl

theorem checkDepth_eq (b : Budget) (span : Span) (m : Machine) :
    checkDepth b span m =
      if b.depth ≤ m.depth then .error (.fault ⟨.callDepth b.depth, span⟩) m else .ok () m := by
  unfold checkDepth
  rw [bind_eq_of_ok (show (get : Exec Machine) m = .ok m m from rfl)]
  split <;> rfl

theorem truncates_checkDepth (h : b.Within b') (span : Span) :
    Truncates (fun halt => halt.overBudget = true) Eq (checkDepth b span)
      (checkDepth b' span) := by
  refine ⟨(grows_checkDepth b' span).mono fun a _ => ⟨a, rfl⟩, fun m => ?_⟩
  rw [checkDepth_eq, checkDepth_eq]
  by_cases hdepth : b.depth ≤ m.depth
  · rw [if_pos hdepth]
    refine .inr ⟨rfl, ?_⟩
    split <;> exact .refl m
  · have hdepth' : ¬ b'.depth ≤ m.depth := by
      have hle := h.depth
      omega
    rw [if_neg hdepth, if_neg hdepth']
    exact ⟨(), rfl, rfl⟩

end Exec

namespace Machine

open Exec

variable {b b' : Budget}

/-- With the same fuel, the run on the larger budget is the same or goes further. -/
theorem shortens_run_of_within (h : b.Within b') (n : Nat) (p : Program) (m : Machine) :
    Shortens (fun halt => halt.overBudget = true) Eq (run b n p m) (run b' n p m) := by
  have hblock := ((truncation _ b b' (truncates_tick h) (truncates_checkDepth h)).agree
    (.throw _) n).block p
  rw [Stmt.allRespan_id] at hblock
  exact shortens_run h.cancelled hblock m

/-- A run that keeps to the smaller budget is the same on the larger one. -/
theorem run_of_within (h : b.Within b') {n : Nat} {p : Program} {m : Machine}
    (hr : overBudget (run b n p m) = false) : run b' n p m = run b n p m := by
  have hshort := shortens_run_of_within h n p m
  cases hrun : run b n p m with
  | ok u k =>
    rw [hrun] at hshort
    obtain ⟨c, hc, -⟩ := hshort
    exact hc
  | error halt k =>
    rw [hrun] at hshort hr
    rcases hshort with hsame | ⟨hcut, -⟩
    · exact hsame
    · rw [overBudget, hcut] at hr
      cases hr

end Machine

/-- Budgets only truncate. A program that ends within the smaller budget ends the same within the
larger, on the same machine in every respect; one that never ends under the smaller budget never
ends under the larger. Where the smaller budget stops a program that ends within the larger, what
was written up to there is a beginning of what is written in the end, and no more steps were
taken; nor does the counter show more, unless it has begun again in between. -/
theorem budgets_only_truncate {b b' : Budget} (h : b.Within b') (p : Program) (m : Machine) :
    (∀ r, Machine.EndsIn b p m r → overBudget r = false → Machine.EndsIn b' p m r) ∧
    ((∀ r, ¬ Machine.EndsIn b p m r) → ∀ r, ¬ Machine.EndsIn b' p m r) ∧
    ∀ r r', Machine.EndsIn b p m r → overBudget r = true → Machine.EndsIn b' p m r' →
      (stateOf r).output.text <+: (stateOf r').output.text ∧
        (stateOf r).steps ≤ (stateOf r').steps ∧
        (turns (stateOf r).steps = turns (stateOf r').steps →
          (stateOf r).counter ≤ (stateOf r').counter) := by
  refine ⟨fun r hr hover => ?_, fun hnever r' hr' => ?_, fun r r' hr hover hr' => ?_⟩
  · obtain ⟨n, hn⟩ := hr.fuel
    refine ⟨hr.finished, n, fun fuel hfuel => ?_⟩
    have hrun := hn fuel hfuel
    rw [← hrun]
    exact Machine.run_of_within h (by rw [hrun]; exact hover)
  · -- With the fuel that shows the end of the larger run, the smaller would end as well.
    obtain ⟨n, hn⟩ := hr'.exists_run
    have hunfinished : finished (Machine.run b n p m) = false := by
      cases hf : finished (Machine.run b n p m) with
      | false => rfl
      | true => exact absurd (Machine.endsIn_run hf) (hnever _)
    have hsame : Machine.run b' n p m = Machine.run b n p m :=
      Machine.run_of_within h (overBudget_of_unfinished hunfinished)
    have hfinished := hr'.finished
    rw [← hn, hsame, hunfinished] at hfinished
    cases hfinished
  · obtain ⟨n, hn⟩ := hr.fuel
    obtain ⟨n', hn'⟩ := hr'.fuel
    have hshort := Machine.shortens_run_of_within h (max n n') p m
    rw [hn _ (Nat.le_max_left ..), hn' _ (Nat.le_max_right ..)] at hshort
    have hprecedes := precedes_of_shortens hshort
    exact ⟨hprecedes.text_prefix, hprecedes.steps,
      fun hturns => (ofNat_le_ofNat_iff hturns).2 hprecedes.steps⟩

/-- Of two writes, a budget of one step leaves the second out. -/
theorem second_write_is_left_out :
    let print (text : String) : Stmt :=
      .call (utf8 "print") .origin [.str (utf8 text) .origin] .origin .origin
    let p : Program := [print "a", print "b"]
    let small : Budget := { steps := 1 }
    Budget.Within small {} ∧
      ∃ r r', Machine.EndsIn small p {} r ∧ overBudget r = true ∧ Machine.EndsIn {} p {} r' ∧
        (stateOf r).output.text = utf8 "a" ∧ (stateOf r').output.text = utf8 "ab" ∧
        (stateOf r).output.text <+: (stateOf r').output.text ∧
        (stateOf r).steps ≤ (stateOf r').steps ∧ (stateOf r).counter ≤ (stateOf r').counter := by
  intro print p small
  have hwithin : Budget.Within small {} := ⟨.inl (by decide), Nat.le_refl _, rfl⟩
  have hr : Machine.EndsIn small p {} (Machine.run small 9 p {}) :=
    Machine.endsIn_run (by decide +kernel)
  have hr' : Machine.EndsIn {} p {} (Machine.run {} 9 p {}) :=
    Machine.endsIn_run (by decide +kernel)
  have hover : overBudget (Machine.run small 9 p {}) = true := by decide +kernel
  obtain ⟨hbegins, hsteps, hcounter⟩ :=
    (budgets_only_truncate hwithin p {}).2.2 _ _ hr hover hr'
  exact ⟨hwithin, _, _, hr, hover, hr', by decide +kernel, by decide +kernel, hbegins, hsteps,
    hcounter (by decide +kernel)⟩

end Scriptlet
