import Scriptlet.Proofs.Machine.Narrowing

/-!
# Termination: a step that stops a run ends it

Every statement and every round of a loop counts a step, so if one of the steps to come would stop
the run, only so many of them begin. Between two steps there is only evaluation, which goes down the
syntax until it calls a function, whose body counts steps again. The fuel a run needs is therefore
bounded by the steps that are left, each worth as much as the largest piece of syntax there is, and
by the size of what is being run.

A bound on the steps has such a step, unless it is the greatest number, which no counter goes
beyond. What the counter shows afterwards tells how the run ended: beyond the bound it is only where
the step that went there stopped the run.
-/

namespace Scriptlet

/-! ## Counting -/

namespace Budget

/-- The steps went from `before` to `after`, and if there were any, the counter was left within the
budget. -/
structure Covers (b : Budget) (before after : Nat) : Prop where
  le : before ≤ after
  within : after = before ∨ .ofNat after ≤ b.steps

/-- The last of the steps took the counter beyond the budget, and those before it did not. -/
structure Exceeds (b : Budget) (before after : Nat) : Prop where
  beyond : b.steps < .ofNat after
  last : ∃ n, b.Covers before n ∧ after = n + 1

variable {b : Budget} {i j k : Nat}

theorem Covers.refl (b : Budget) (n : Nat) : b.Covers n n := ⟨Nat.le_refl n, .inl rfl⟩

theorem Covers.trans (h : b.Covers i j) (h' : b.Covers j k) : b.Covers i k := by
  refine ⟨Nat.le_trans h.le h'.le, ?_⟩
  rcases h'.within with rfl | hwithin
  · exact h.within
  · exact .inr hwithin

theorem Covers.exceeds (h : b.Covers i j) (h' : b.Exceeds j k) : b.Exceeds i k := by
  obtain ⟨n, hn, hk⟩ := h'.last
  exact ⟨h'.beyond, n, h.trans hn, hk⟩

theorem Covers.counter_le (h : b.Covers i j) :
    (Int64.ofNat j).toInt ≤ max (Int64.ofNat i).toInt b.steps.toInt := by
  rcases h.within with rfl | hwithin
  · exact Int.le_max_left ..
  · exact Int.le_trans (Int64.le_iff_toInt_le.1 hwithin) (Int.le_max_right ..)

theorem Exceeds.counter_le (h : b.Exceeds i k) :
    (Int64.ofNat k).toInt ≤ max (Int64.ofNat i).toInt b.steps.toInt + 1 := by
  obtain ⟨n, hn, rfl⟩ := h.last
  have hle := hn.counter_le
  have hnext := toInt_ofNat_succ_le n
  omega

theorem Exceeds.lt (h : b.Exceeds i k) : i < k := by
  obtain ⟨n, hn, rfl⟩ := h.last
  exact Nat.lt_succ_of_le hn.le

end Budget

/-- The halt is for want of steps, of which there were `n`. -/
def Halt.IsStepLimit (n : Int64) (h : Halt) : Prop := ∃ span, h = .fault ⟨.stepLimit n, span⟩

theorem Fault.Own.ne_stepLimit {fault : Fault} (h : fault.Own) (k : Int64) :
    fault ≠ .stepLimit k := by
  intro hk
  apply h.budget
  rw [hk]
  rfl

namespace Exec

open Machine

variable {α β : Type} {P : α → Prop} {Q : β → Prop}

/-! ## Actions that count nothing -/

/-- The action counts no steps and declares no functions, and it stops neither for want of steps
nor for want of fuel. -/
def Quiet (P : α → Prop) (x : Exec α) : Prop :=
  ∀ m, Ends (x m) (fun a n => P a ∧ n.steps = m.steps ∧ n.functions = m.functions)
    (fun h n => n.steps = m.steps ∧ h ≠ .outOfFuel ∧ ∀ k, ¬ h.IsStepLimit k)

namespace Quiet

theorem pure {a : α} (h : P a) : Quiet P (pure a : Exec α) := fun _ => ⟨h, rfl, rfl⟩

theorem fail {fault : Fault} (h : ∀ k, fault ≠ .stepLimit k) (span : Span) :
    Quiet P (fail fault span : Exec α) := by
  intro m
  refine ⟨rfl, Halt.noConfusion, fun k hk => ?_⟩
  obtain ⟨_, hspan⟩ := hk
  cases hspan
  exact h k rfl

theorem stuck : Quiet P (throw .stuck : Exec α) :=
  fun _ => ⟨rfl, Halt.noConfusion, fun _ ⟨_, h⟩ => Halt.noConfusion h⟩

theorem exit (n : Int64) : Quiet P (throw (.exit n) : Exec α) :=
  fun _ => ⟨rfl, Halt.noConfusion, fun _ ⟨_, h⟩ => Halt.noConfusion h⟩

theorem get {P : Machine → Prop} (h : ∀ m, P m) : Quiet P (get : Exec Machine) :=
  fun m => ⟨h m, rfl, rfl⟩

theorem modify {P : PUnit → Prop} {f : Machine → Machine} (hP : P ⟨⟩)
    (h : ∀ m, (f m).steps = m.steps ∧ (f m).functions = m.functions) :
    Quiet P (modify f : Exec PUnit) := fun m => ⟨hP, h m⟩

theorem bind {x : Exec α} {f : α → Exec β} (hx : Quiet P x) (hf : ∀ a, P a → Quiet Q (f a)) :
    Quiet Q (x >>= f) := by
  intro m
  rw [Ends.bind_iff]
  refine (hx m).mono (fun a n ha => ?_) (fun _ _ h => h)
  have hrest := hf a ha.1 n
  rw [ha.2.1, ha.2.2] at hrest
  exact hrest

theorem mono {P' : α → Prop} {x : Exec α} (h : Quiet P x) (hP : ∀ a, P a → P' a) : Quiet P' x :=
  fun m => (h m).mono (fun a _ ha => ⟨hP a ha.1, ha.2⟩) (fun _ _ h => h)

end Quiet

theorem quiet_write (span : Span) (text : Bytes) : Quiet (fun _ => True) (write span text) := by
  refine Quiet.bind (Quiet.get (P := fun _ => True) fun _ => trivial) fun m _ => ?_
  refine Quiet.bind (Quiet.modify (P := fun _ => True) trivial fun _ => ⟨rfl, rfl⟩) fun _ _ => ?_
  split
  · exact Quiet.pure trivial
  · exact Quiet.fail (fun _ => Fault.noConfusion) _

theorem quiet_readLine (span : Span) : Quiet (fun _ => True) (readLine span) := by
  refine Quiet.bind (Quiet.get (P := fun _ => True) fun _ => trivial) fun m _ => ?_
  refine Quiet.bind (Quiet.modify (P := fun _ => True) trivial fun _ => ⟨rfl, rfl⟩) fun _ _ => ?_
  split
  · exact Quiet.pure trivial
  · exact Quiet.fail (fun _ => Fault.noConfusion) _

theorem quiet_checkDepth (b : Budget) (span : Span) :
    Quiet (fun _ => True) (checkDepth b span) := by
  apply Quiet.bind (Quiet.get (P := fun _ => True) fun _ => trivial)
  intro m _
  split
  · exact Quiet.fail (fun _ => Fault.noConfusion) _
  · exact Quiet.pure trivial

theorem quiet_declare (name : Bytes) (v : Value) :
    Quiet (fun _ => True) (modify (Machine.declare name v)) := by
  apply Quiet.modify trivial
  intro m
  unfold Machine.declare
  split <;> exact ⟨rfl, rfl⟩

theorem quiet_assign (name : Bytes) (v : Value) :
    Quiet (fun _ => True) (modify (Machine.assign name v)) := by
  apply Quiet.modify trivial
  intro m
  unfold Machine.assign
  split
  · exact ⟨rfl, rfl⟩
  · split <;> exact ⟨rfl, rfl⟩

/-- What can be done without a look at variables, functions and steps counts nothing. -/
def quiet : Comparison id where
  Rel P x _ := Quiet (fun a => ∃ c, P a c) x
  pure h := Quiet.pure ⟨_, h⟩
  bind hx hp := Quiet.bind hx fun a ⟨c, hc⟩ => hp a c hc
  stuck := Quiet.stuck
  fail h span := Quiet.fail h.ne_stepLimit span
  look := Quiet.get fun m => ⟨m, m.sameNames_id⟩
  write span text := (quiet_write span text).mono fun a _ => ⟨a, rfl⟩
  readLine span := (quiet_readLine span).mono fun a _ => ⟨a, rfl⟩

/-! ## The count and the outcome -/

/-- The action keeps count: it stops for want of steps exactly where the count went beyond the
budget. -/
def Accounts (b : Budget) (P : α → Prop) (x : Exec α) : Prop :=
  ∀ m, Ends (x m) (fun a n => P a ∧ b.Covers m.steps n.steps)
    (fun h n => h.IsStepLimit b.steps ∧ b.Exceeds m.steps n.steps ∨
      (∀ k, ¬ h.IsStepLimit k) ∧ b.Covers m.steps n.steps)

namespace Accounts

variable {b : Budget}

theorem of_quiet {x : Exec α} (h : Quiet P x) : Accounts b P x := by
  intro m
  refine (h m).mono (fun a n ha => ⟨ha.1, ?_⟩) (fun halt n hn => .inr ⟨hn.2.2, ?_⟩)
  · rw [ha.2.1]; exact .refl b _
  · rw [hn.1]; exact .refl b _

theorem bind {x : Exec α} {f : α → Exec β} (hx : Accounts b P x)
    (hf : ∀ a, P a → Accounts b Q (f a)) : Accounts b Q (x >>= f) := by
  intro m
  rw [Ends.bind_iff]
  refine (hx m).mono (fun a n ha => ?_) (fun _ _ h => h)
  refine (hf a ha.1 n).mono (fun c o hc => ⟨hc.1, ha.2.trans hc.2⟩) (fun halt o ho => ?_)
  rcases ho with ⟨hlimit, hexceeds⟩ | ⟨hother, hcovers⟩
  · exact .inl ⟨hlimit, ha.2.exceeds hexceeds⟩
  · exact .inr ⟨hother, ha.2.trans hcovers⟩

theorem inCall {x : Exec α} (h : Accounts b P x) (own : Scope) : Accounts b P (inCall own x) := by
  intro m
  have hx := h { m with locals := some own, depth := m.depth + 1 }
  unfold Exec.inCall
  cases hr : x { m with locals := some own, depth := m.depth + 1 } with
  | ok a n =>
    have hn := hx.of_ok hr
    exact hn
  | error e n =>
    have hn := hx.of_error hr
    exact hn

end Accounts

theorem accounts_tick {b : Budget} (hb : 0 < b.steps) (span : Span) :
    Accounts b (fun _ => True) (tick b span) := by
  intro m
  rw [tick_eq]
  by_cases hlimit : 0 < b.steps ∧ b.steps < .ofNat (m.steps + 1)
  · rw [if_pos hlimit]
    exact .inl ⟨⟨span, rfl⟩, hlimit.2, m.steps, .refl b _, rfl⟩
  · rw [if_neg hlimit]
    -- A step within the bound is counted even where the run is then found to be cancelled.
    have hwithin : .ofNat (m.steps + 1) ≤ b.steps := Int64.not_lt.1 fun h => hlimit ⟨hb, h⟩
    have hcovers : b.Covers m.steps (m.steps + 1) := ⟨Nat.le_succ _, .inr hwithin⟩
    have hother (reason : Bytes) (k : Int64) :
        ¬ (Halt.fault ⟨.cancelled reason, span⟩).IsStepLimit k := by
      rintro ⟨_, h⟩
      cases h
    split
    · split
      · exact .inr ⟨hother _, hcovers⟩
      · exact ⟨trivial, hcovers⟩
    · exact ⟨trivial, hcovers⟩

/-- Whatever is done within a bound on the steps keeps count. -/
def accounting {b : Budget} (hb : 0 < b.steps) : Congruence id b b where
  Rel P x _ := Accounts b (fun a => ∃ c, P a c) x
  pure h := .of_quiet (quiet.pure h)
  bind hx hp := .bind hx fun a ⟨c, hc⟩ => hp a c hc
  stuck := .of_quiet Quiet.stuck
  fail h span := .of_quiet (Quiet.fail h.ne_stepLimit span)
  look := .of_quiet quiet.look
  write span text := .of_quiet (quiet.write span text)
  readLine span := .of_quiet (quiet.readLine span)
  exit n := .of_quiet (Quiet.exit n)
  tick span := fun m =>
    (accounts_tick hb span m).mono (fun a _ h => ⟨⟨a, rfl⟩, h.2⟩) (fun _ _ h => h)
  checkDepth span := .of_quiet ((quiet_checkDepth b span).mono fun a _ => ⟨a, rfl⟩)
  declare name v := .of_quiet ((quiet_declare name v).mono fun a _ => ⟨a, rfl⟩)
  assign name v := .of_quiet ((quiet_assign name v).mono fun a _ => ⟨a, rfl⟩)
  define _ _ := fun m => ⟨⟨_, rfl⟩, .refl b m.steps⟩
  inCall own h := h.inCall own

theorem accounts_block {b : Budget} (hb : 0 < b.steps) (n : Nat) (ss : List Stmt) :
    Accounts b (fun _ => True) (block b n ss) := by
  have hagree := (accounting hb).agree
    (fun m => .inr ⟨fun k ⟨_, h⟩ => Halt.noConfusion h, .refl b m.steps⟩) n
  intro m
  exact (hagree.block ss m).mono (fun a _ h => ⟨trivial, h.2⟩) (fun _ _ h => h)

end Exec

/-! ## Steps that stop a run -/

namespace Budget

/-- No run gets beyond the step with the number `last`. -/
def StopsAt (b : Budget) (last : Nat) : Prop :=
  ∀ span (m : Machine), m.steps + 1 = last → ∀ k, Exec.tick b span m ≠ .ok () k

/-- However many steps were taken, one is still to come that stops a run. -/
def Stops (b : Budget) : Prop := ∀ n, ∃ last, n < last ∧ b.StopsAt last

variable {b : Budget}

/-- A bound on the steps stops every run, if the counter has a number beyond it to show. -/
theorem stops_of_steps (hpos : 0 < b.steps) (hmax : b.steps < Int64.maxValue) : b.Stops := by
  intro n
  -- The step at which the counter next shows the greatest number is beyond the bound.
  obtain ⟨last, hlt, hlast⟩ := exists_ofNat_eq Int64.maxValue n
  refine ⟨last, hlt, fun span m hm k h => ?_⟩
  rw [Exec.tick_eq, hm, hlast, if_pos ⟨hpos, hmax⟩] at h
  cases h

/-- A run that is cancelled from some number of steps on is stopped. -/
theorem stops_of_cancelled {n : Nat} (h : ∀ m : Machine, n ≤ m.steps → b.cancelled m ≠ none) :
    b.Stops := by
  intro i
  -- At a multiple of 64 it is looked at, and by then the run is cancelled for good.
  refine ⟨64 * (max n i + 1), by omega, fun span m hm k htick => ?_⟩
  have hlooks : Int64.ofNat (m.steps + 1) % cancelInterval = 0 := by
    rw [ofNat_mod_cancelInterval, hm, Nat.mul_mod_right]
  have hcancelled := h { m with steps := m.steps + 1 } (by show n ≤ m.steps + 1; omega)
  rw [Exec.tick_eq, if_pos hlooks] at htick
  split at htick
  · cases htick
  · split at htick
    · cases htick
    · rename_i hnone
      exact hcancelled hnone

end Budget

/-! ## Fuel that suffices -/

/-- The machine has not come to the step `last`, and is at most `left` steps away from it. -/
def Machine.Nears (last left : Nat) (m : Machine) : Prop :=
  m.steps < last ∧ last ≤ m.steps + left

/-- No function declared on the machine has a body larger than `size`. -/
def Machine.Bounded (size : Nat) (m : Machine) : Prop :=
  ∀ d ∈ m.functions, sizeOf d.2.body ≤ size

theorem Machine.bounded_sizeOf (m : Machine) : m.Bounded (sizeOf m.functions) := by
  intro d hd
  have hlt := List.sizeOf_lt_of_mem hd
  obtain ⟨name, params, result, body⟩ := d
  simp only [Prod.mk.sizeOf_spec, Function.mk.sizeOf_spec] at hlt
  dsimp only
  omega

theorem Machine.Bounded.mono {size size' : Nat} {m : Machine} (h : m.Bounded size)
    (hle : size ≤ size') : m.Bounded size' := fun d hd => Nat.le_trans (h d hd) hle

theorem Machine.Bounded.function? {size : Nat} {m : Machine} (h : m.Bounded size) {name : Bytes}
    {f : Function} (hf : m.function? name = some f) : sizeOf f.body ≤ size := by
  unfold Machine.function? at hf
  obtain ⟨l, r, hlr, -⟩ := List.lookup_eq_some_iff.1 hf
  exact h (name, f) (by rw [hlr]; simp)

theorem Machine.Bounded.define {size : Nat} {m : Machine} (h : m.Bounded size) (name : Bytes)
    {f : Function} (hf : sizeOf f.body ≤ size) : (m.define name f).Bounded size := by
  intro d hd
  rcases List.mem_cons.1 hd with rfl | hd
  · exact hf
  · exact h d (List.mem_filter.1 hd).1

namespace Exec

open Machine

variable {α β : Type} {b : Budget} {last size left : Nat}

/-- From a machine with functions of bounded size and at most `left` steps before the last one, the
action does not want for fuel, and leaves such a machine. -/
def EndsWithin (last size left : Nat) (x : Exec α) : Prop :=
  ∀ m : Machine, m.Bounded size → m.Nears last left →
    Ends (x m) (fun _ n => n.Bounded size ∧ n.Nears last left) (fun h _ => h ≠ .outOfFuel)

namespace EndsWithin

theorem of_quiet {P : α → Prop} {x : Exec α} (h : Quiet P x) : EndsWithin last size left x := by
  intro m hsize hleft
  refine (h m).mono (fun a n ha => ⟨?_, ?_⟩) (fun _ _ hn => hn.2.1)
  · unfold Bounded
    rw [ha.2.2]
    exact hsize
  · unfold Nears
    rw [ha.2.1]
    exact hleft

theorem pure (a : α) : EndsWithin last size left (pure a) :=
  .of_quiet (Quiet.pure (P := fun _ => True) trivial)

theorem mismatch (need : Need) (got : Value) (span : Span) :
    EndsWithin last size left (mismatch need got span : Exec α) :=
  .of_quiet (Quiet.fail (P := fun _ => True) (fun _ => Fault.noConfusion) span)

theorem fail {fault : Fault} (h : fault.Own) (span : Span) :
    EndsWithin last size left (fail fault span : Exec α) :=
  .of_quiet (Quiet.fail (P := fun _ => True) h.ne_stepLimit span)

theorem bind {x : Exec α} {f : α → Exec β} (hx : EndsWithin last size left x)
    (hf : ∀ a, EndsWithin last size left (f a)) : EndsWithin last size left (x >>= f) := by
  intro m hsize hleft
  rw [Ends.bind_iff]
  exact (hx m hsize hleft).mono (fun a n hn => hf a n hn.1 hn.2) (fun _ _ h => h)

/-- What comes after a look at the machine may use that its functions are bounded. -/
theorem get_bind {f : Machine → Exec β}
    (h : ∀ m, m.Bounded size → EndsWithin last size left (f m)) :
    EndsWithin last size left (get >>= f) := by
  intro m hsize hleft
  rw [Ends.bind_iff, Ends.get_iff]
  exact h m hsize m hsize hleft

/-- After a step that did not stop the run there are fewer steps left. -/
theorem tick_bind {f : Unit → Exec β} (hb : b.StopsAt last) (span : Span)
    (h : ∀ left' < left, EndsWithin last size left' (f ())) :
    EndsWithin last size left (tick b span >>= f) := by
  intro m hsize ⟨hlt, hle⟩
  rw [Ends.bind_iff]
  cases hr : tick b span m with
  | error halt k =>
    show halt ≠ .outOfFuel
    rintro rfl
    exact (of_tick_error hr).1
  | ok u k =>
    have hk : k = { m with steps := m.steps + 1 } := by
      have hstate := stateOf_tick b span m
      rw [hr] at hstate
      exact hstate
    subst hk
    have hlast : m.steps + 1 ≠ last := fun hm => hb span m hm _ hr
    have hnears : Nears last (left - 1) { m with steps := m.steps + 1 } :=
      ⟨by show m.steps + 1 < last; omega, by show last ≤ m.steps + 1 + (left - 1); omega⟩
    refine (h (left - 1) (by omega) { m with steps := m.steps + 1 } hsize hnears).mono
      (fun _ n hn => ?_) (fun _ _ hn => hn)
    exact ⟨hn.1, hn.2.1, Nat.le_trans hn.2.2 (by omega)⟩

theorem inCall {x : Exec α} (h : EndsWithin last size left x) (own : Scope) :
    EndsWithin last size left (inCall own x) := by
  intro m hsize hleft
  have hx := h { m with locals := some own, depth := m.depth + 1 } hsize hleft
  unfold Exec.inCall
  cases hr : x { m with locals := some own, depth := m.depth + 1 } with
  | ok a n =>
    have hn := hx.of_ok hr
    exact hn
  | error e n =>
    have hn := hx.of_error hr
    exact hn

theorem define (name : Bytes) {g : Function} (h : sizeOf g.body ≤ size) :
    EndsWithin last size left (modify (Machine.define name g)) :=
  fun _ hsize hleft => ⟨hsize.define name h, hleft⟩

end EndsWithin

/-- The fuel that pays for `left` steps, each with an evaluation of anything up to `size`. -/
def fuelForSteps (size left : Nat) : Nat := left * (3 * size + 3)

theorem fuelForSteps_add_le {left' : Nat} (h : left' < left) :
    fuelForSteps size left' + (3 * size + 3) ≤ fuelForSteps size left := by
  unfold fuelForSteps
  rw [← Nat.succ_mul]
  exact Nat.mul_le_mul_right _ h

/-- With `n` units of fuel every part that is small enough ends. An evaluation may call a function,
so it pays for a body of the largest size beside its own syntax. -/
structure EndsAt (b : Budget) (last size n : Nat) : Prop where
  eval : ∀ left hint e, fuelForSteps size left + size + 2 + 2 * sizeOf e ≤ n →
    EndsWithin last size left (eval b n hint e)
  items : ∀ left t es, fuelForSteps size left + size + 2 + 2 * sizeOf es ≤ n →
    EndsWithin last size left (evalItems b n t es)
  args : ∀ left hints es, fuelForSteps size left + size + 2 + 2 * sizeOf es ≤ n →
    EndsWithin last size left (evalArgs b n hints es)
  call : ∀ left wanted name nameSpan args span,
    fuelForSteps size left + size + 3 + 2 * sizeOf args ≤ n →
    EndsWithin last size left (call b n wanted name nameSpan args span)
  stmt : ∀ left s, sizeOf s ≤ size → fuelForSteps size left + 1 ≤ n →
    EndsWithin last size left (stmt b n s)
  block : ∀ left ss, sizeOf ss ≤ size → fuelForSteps size left + 2 + sizeOf ss ≤ n →
    EndsWithin last size left (block b n ss)
  rounds : ∀ left body span, sizeOf body ≤ size →
    fuelForSteps size left + 3 + sizeOf body ≤ n → EndsWithin last size left (rounds b n body span)

section Step

variable {n : Nat} (ih : EndsAt b last size n)
include ih

theorem endsWithin_eval (hint : Option Ty) (e : Expr)
    (h : fuelForSteps size left + size + 2 + 2 * sizeOf e ≤ n + 1) :
    EndsWithin last size left (eval b (n + 1) hint e) := by
  cases e with
  | int k span | str s span | bool t span => rw [Exec.eval]; exact .pure _
  | ident name span =>
    rw [Exec.eval]
    apply EndsWithin.get_bind
    intro m _
    cases m.slot? name with
    | none => exact .fail ⟨Code.noConfusion, Code.noConfusion⟩ _
    | some slot => exact .pure _
  | vec elems span =>
    rw [Expr.vec.sizeOf_spec] at h
    rw [Exec.eval]
    apply EndsWithin.bind (ih.items left _ elems (by omega))
    rintro ⟨t, items⟩
    cases t with
    | none => exact .fail ⟨Code.noConfusion, Code.noConfusion⟩ _
    | some t => exact .pure _
  | neg operand span =>
    rw [Expr.neg.sizeOf_spec] at h
    rw [Exec.eval]
    apply EndsWithin.bind (ih.eval left _ operand (by omega))
    intro v
    cases v with
    | int k => exact .pure _
    | str | bool | vec => exact .mismatch _ _ _
  | binary op l r span =>
    rw [Expr.binary.sizeOf_spec] at h
    rw [Exec.eval]
    apply EndsWithin.bind (ih.eval left _ l (by omega))
    intro v
    apply EndsWithin.bind (ih.eval left _ r (by omega))
    intro w
    exact .of_quiet (quiet.operate op l r v w)
  | call name nameSpan args span =>
    rw [Expr.call.sizeOf_spec] at h
    rw [Exec.eval]
    apply EndsWithin.bind (ih.call left _ _ _ args _ (by omega))
    intro v
    cases v with
    | none => exact .of_quiet (quiet.stuck (P := Eq))
    | some v => exact .pure _
  | index target place span =>
    rw [Expr.index.sizeOf_spec] at h
    rw [Exec.eval]
    apply EndsWithin.bind (ih.eval left _ target (by omega))
    intro v
    cases v with
    | vec t items =>
      apply EndsWithin.bind (ih.eval left _ place (by omega))
      intro w
      cases w with
      | int i => exact .of_quiet (quiet.itemAt place items i)
      | str | bool | vec => exact .mismatch _ _ _
    | int | str | bool => exact .mismatch _ _ _

theorem endsWithin_evalItems (t : Option Ty) (es : List Expr)
    (h : fuelForSteps size left + size + 2 + 2 * sizeOf es ≤ n + 1) :
    EndsWithin last size left (evalItems b (n + 1) t es) := by
  cases es with
  | nil => rw [Exec.evalItems]; exact .pure _
  | cons e rest =>
    rw [List.cons.sizeOf_spec] at h
    rw [Exec.evalItems]
    apply EndsWithin.bind (ih.eval left _ e (by omega))
    intro v
    dsimp only
    split
    · exact .fail ⟨Code.noConfusion, Code.noConfusion⟩ _
    · exact .bind (ih.items left _ rest (by omega)) fun _ => .pure _

theorem endsWithin_evalArgs (hints : List Ty) (es : List Expr)
    (h : fuelForSteps size left + size + 2 + 2 * sizeOf es ≤ n + 1) :
    EndsWithin last size left (evalArgs b (n + 1) hints es) := by
  cases es with
  | nil => rw [Exec.evalArgs]; exact .pure _
  | cons e rest =>
    rw [List.cons.sizeOf_spec] at h
    rw [Exec.evalArgs]
    apply EndsWithin.bind (ih.eval left _ e (by omega))
    intro v
    exact .bind (ih.args left _ rest (by omega)) fun _ => .pure _

theorem endsWithin_call (wanted : Bool) (name : Bytes) (nameSpan : Span) (args : List Expr)
    (span : Span) (h : fuelForSteps size left + size + 3 + 2 * sizeOf args ≤ n + 1) :
    EndsWithin last size left (call b (n + 1) wanted name nameSpan args span) := by
  rw [Exec.call]
  cases Builtin.ofName? name with
  | some g =>
    apply EndsWithin.bind (ih.args left _ args (by omega))
    intro values
    exact .of_quiet (quiet.callBuiltin wanted g name span args values)
  | none =>
    unfold callee
    rw [bind_assoc]
    apply EndsWithin.get_bind
    intro m hm
    -- A call that is refused ends at once.
    have hrefused (fault : Fault) (place : Span) (f : Function → Exec (Option Value)) :
        EndsWithin last size left (Exec.fail fault place >>= f) := fun _ _ _ => Halt.noConfusion
    cases hg : m.function? name with
    | none => exact hrefused _ _ _
    | some g =>
      have hbody := hm.function? hg
      dsimp only
      split
      · exact hrefused _ _ _
      · split
        · exact hrefused _ _ _
        · rw [pure_bind]
          apply EndsWithin.bind (ih.args left _ args (by omega))
          intro values
          apply EndsWithin.bind (.of_quiet (quiet.bindParams g.params args values []))
          intro own
          apply EndsWithin.bind (.of_quiet (quiet_checkDepth b span))
          intro _
          -- The `size` that an evaluation has beside its own syntax is for this body.
          apply EndsWithin.bind ((ih.block left g.body hbody (by omega)).inCall own)
          intro flow
          cases flow with
          | next | leave => exact .of_quiet (quiet.returned wanted name span g.result none)
          | ret v => exact .of_quiet (quiet.returned wanted name span g.result v)

theorem endsWithin_block (ss : List Stmt) (hsize : sizeOf ss ≤ size)
    (h : fuelForSteps size left + 2 + sizeOf ss ≤ n + 1) :
    EndsWithin last size left (block b (n + 1) ss) := by
  cases ss with
  | nil => rw [Exec.block]; exact .pure _
  | cons s rest =>
    rw [List.cons.sizeOf_spec] at h hsize
    rw [Exec.block]
    apply EndsWithin.bind (ih.stmt left s (by omega) (by omega))
    intro flow
    cases flow with
    | next => exact ih.block left rest (by omega) (by omega)
    | leave | ret => exact .pure _

variable (hb : b.StopsAt last)
include hb

theorem endsWithin_stmt (s : Stmt) (hsize : sizeOf s ≤ size)
    (h : fuelForSteps size left + 1 ≤ n + 1) : EndsWithin last size left (stmt b (n + 1) s) := by
  rw [Exec.stmt.eq_def]
  apply EndsWithin.tick_bind hb
  intro left' hleft
  -- The step has paid for whatever the statement is made of.
  have hpaid : fuelForSteps size left' + (3 * size + 3) ≤ n :=
    Nat.le_trans (fuelForSteps_add_le hleft) (Nat.le_of_succ_le_succ h)
  -- An expression costs up to twice its size, and a body that it calls one size more.
  have heval (hint : Option Ty) (e : Expr) (he : sizeOf e ≤ size) :
      EndsWithin last size left' (eval b n hint e) := ih.eval left' hint e (by omega)
  have hblock (ss : List Stmt) (hss : sizeOf ss ≤ size) :
      EndsWithin last size left' (block b n ss) := ih.block left' ss hss (by omega)
  cases s with
  | letVar name nameSpan type value span =>
    rw [Stmt.letVar.sizeOf_spec] at hsize
    apply EndsWithin.bind (heval type value (by omega))
    intro v
    have hdeclare : EndsWithin last size left' (do
        modify (Machine.declare name v)
        return Flow.next : Exec Flow) :=
      .bind (.of_quiet (quiet_declare name v)) fun _ => .pure _
    cases type with
    | none => exact hdeclare
    | some t =>
      dsimp only
      split
      · exact .bind (.fail ⟨Code.noConfusion, Code.noConfusion⟩ _) fun _ => hdeclare
      · exact hdeclare
  | assign name value span =>
    rw [Stmt.assign.sizeOf_spec] at hsize
    apply EndsWithin.get_bind
    intro m _
    cases m.slot? name with
    | none => exact .fail ⟨Code.noConfusion, Code.noConfusion⟩ _
    | some slot =>
      apply EndsWithin.bind (heval _ value (by omega))
      intro v
      have hassign : EndsWithin last size left' (do
          modify (Machine.assign name v)
          return Flow.next : Exec Flow) :=
        .bind (.of_quiet (quiet_assign name v)) fun _ => .pure _
      dsimp only
      split
      · exact .bind (.fail ⟨Code.noConfusion, Code.noConfusion⟩ _) fun _ => hassign
      · exact hassign
  | assignAt name place value span =>
    rw [Stmt.assignAt.sizeOf_spec] at hsize
    apply EndsWithin.get_bind
    intro m _
    cases m.slot? name with
    | none => exact .fail ⟨Code.noConfusion, Code.noConfusion⟩ _
    | some slot =>
      obtain ⟨type, held⟩ := slot
      cases held with
      | vec elem items =>
        apply EndsWithin.bind (heval _ place (by omega))
        intro w
        cases w with
        | int i =>
          apply EndsWithin.bind (heval _ value (by omega))
          intro v
          apply EndsWithin.bind (.of_quiet (quiet.setItem place value elem items i v))
          intro changed
          exact .bind (.of_quiet (quiet_assign name changed)) fun _ => .pure _
        | str | bool | vec => exact .mismatch _ _ _
      | int | str | bool => exact .mismatch _ _ _
  | call name nameSpan args callSpan span =>
    rw [Stmt.call.sizeOf_spec] at hsize
    exact .bind (ih.call left' _ _ _ args _ (by omega)) fun _ => .pure _
  | when cond body bodySpan span =>
    rw [Stmt.when.sizeOf_spec] at hsize
    apply EndsWithin.bind (heval _ cond (by omega))
    intro v
    cases v with
    | bool t =>
      cases t with
      | true => exact hblock body (by omega)
      | false => exact .pure _
    | int | str | vec => exact .mismatch _ _ _
  | ifElse cond body bodySpan other otherSpan span =>
    rw [Stmt.ifElse.sizeOf_spec] at hsize
    apply EndsWithin.bind (heval _ cond (by omega))
    intro v
    cases v with
    | bool t =>
      cases t with
      | true => exact hblock body (by omega)
      | false => exact hblock other (by omega)
    | int | str | vec => exact .mismatch _ _ _
  | loop body bodySpan span =>
    rw [Stmt.loop.sizeOf_spec] at hsize
    exact ih.rounds left' body span (by omega) (by omega)
  | stop span => exact .pure _
  | ret value span =>
    cases value with
    | none => exact .pure _
    | some value =>
      rw [Stmt.ret.sizeOf_spec, Option.some.sizeOf_spec] at hsize
      exact .bind (heval _ value (by omega)) fun _ => .pure _
  | exit value span =>
    rw [Stmt.exit.sizeOf_spec] at hsize
    apply EndsWithin.bind (heval _ value (by omega))
    intro v
    cases v with
    | int k => exact .of_quiet (Quiet.exit (P := fun _ => True) k)
    | str | bool | vec => exact .mismatch _ _ _
  | fn name params result body bodySpan span =>
    rw [Stmt.fn.sizeOf_spec] at hsize
    dsimp only
    cases Builtin.ofName? name with
    | some g => exact .fail ⟨Code.noConfusion, Code.noConfusion⟩ _
    | none =>
      exact .bind (.define name (show sizeOf body ≤ size by omega)) fun _ => .pure _

theorem endsWithin_rounds (body : List Stmt) (span : Span) (hsize : sizeOf body ≤ size)
    (h : fuelForSteps size left + 3 + sizeOf body ≤ n + 1) :
    EndsWithin last size left (rounds b (n + 1) body span) := by
  rw [Exec.rounds]
  apply EndsWithin.bind (ih.block left body hsize (by omega))
  intro flow
  cases flow with
  | leave | ret => exact .pure _
  | next =>
    apply EndsWithin.tick_bind hb
    intro left' hleft
    -- The round's own step pays for the next round.
    have hpaid : fuelForSteps size left' + (3 * size + 3) ≤ fuelForSteps size left :=
      fuelForSteps_add_le hleft
    exact ih.rounds left' body span hsize (by omega)

end Step

/-- Whatever the fuel, the parts for which it is enough end. -/
theorem endsAt (hb : b.StopsAt last) (size n : Nat) : EndsAt b last size n := by
  induction n with
  | zero =>
    -- Nothing is paid for by no fuel.
    constructor <;> intros <;> omega
  | succ n ih =>
    exact ⟨fun _ => endsWithin_eval ih, fun _ => endsWithin_evalItems ih,
      fun _ => endsWithin_evalArgs ih, fun _ => endsWithin_call ih,
      fun _ => endsWithin_stmt ih hb, fun _ => endsWithin_block ih,
      fun _ => endsWithin_rounds ih hb⟩

end Exec

/-! ## Runs -/

namespace Machine

open Exec

variable {b : Budget}

theorem exists_finished_run {last : Nat} (hb : b.StopsAt last) (p : Program) {m : Machine}
    (hm : m.steps < last) : ∃ n, finished (run b n p m) = true := by
  -- Bodies come from the program or were there before, so this is as large as they get.
  let size := sizeOf p + sizeOf m.functions
  let n := fuelForSteps size last + 2 + sizeOf p
  have hblock : EndsWithin last size last (block b n p) :=
    (endsAt hb size n).block last p (Nat.le_add_right ..) (Nat.le_refl n)
  have hends := hblock m (m.bounded_sizeOf.mono (Nat.le_add_left ..)) ⟨hm, Nat.le_add_left ..⟩
  refine ⟨n, ?_⟩
  cases hc : b.cancelled m with
  | some reason => rw [run_eq, hc]; rfl
  | none =>
    rw [run_of_not_cancelled hc]
    cases hr : block b n p m with
    | ok flow k => rfl
    | error halt k =>
      have hfuel : halt ≠ .outOfFuel := hends.of_error hr
      cases halt with
      | outOfFuel => exact absurd rfl hfuel
      | fault | exit | stuck => rfl

theorem exists_finished_of_stops (hb : b.Stops) (p : Program) (m : Machine) :
    ∃ n, finished (run b n p m) = true := by
  obtain ⟨last, hlt, hlast⟩ := hb m.steps
  exact exists_finished_run hlast p hlt

theorem accounts_run (hb : 0 < b.steps) (n : Nat) (p : Program) :
    Accounts b (fun _ => True) (run b n p) := by
  intro m
  rw [run_eq]
  cases b.cancelled m with
  | some reason =>
    refine .inr ⟨fun k hk => ?_, .refl b _⟩
    obtain ⟨_, h⟩ := hk
    cases h
  | none =>
    exact Accounts.bind (accounts_block hb n p) (fun _ _ => .of_quiet (Quiet.pure trivial)) m

end Machine

/-! ## The greatest bound -/

namespace Exec

open Machine

/-- No counter goes beyond the greatest number, so as a bound it is none. -/
theorem tick_of_greatest {b : Budget} (h : b.steps = Int64.maxValue) :
    tick b = tick { b with steps := 0 } := by
  funext span m
  have hbound : ¬ (0 < b.steps ∧ b.steps < .ofNat (m.steps + 1)) := by
    rintro ⟨-, hbeyond⟩
    rw [h] at hbeyond
    exact Int64.not_lt.2 (Int64.le_maxValue _) hbeyond
  have hnone : ¬ ((0 : Int64) < 0 ∧ (0 : Int64) < .ofNat (m.steps + 1)) :=
    fun hzero => Int64.lt_irrefl hzero.1
  rw [tick_eq, tick_eq, if_neg hbound, if_neg hnone]

/-- A loop with nothing in it takes step after step. -/
theorem rounds_nil {b : Budget} (hb : ∀ span m, ∃ k, tick b span m = .ok () k) (n : Nat)
    (span : Span) (m : Machine) : ∃ k, rounds b n [] span m = .error .outOfFuel k := by
  induction n generalizing m with
  | zero => exact ⟨m, by rw [rounds_zero]; rfl⟩
  | succ n ih =>
    rw [rounds]
    cases n with
    | zero => exact ⟨m, bind_eq_of_error (by rw [block_zero]; rfl)⟩
    | succ n =>
      have hround : block b (n + 1) [] m = .ok .next m := by rw [block]; rfl
      obtain ⟨k, hk⟩ := hb span m
      rw [bind_eq_of_ok hround]
      dsimp only
      rw [bind_eq_of_ok hk]
      exact ih k

/-- So a program that consists of one never ends. -/
theorem block_empty_loop {b : Budget} (hb : ∀ span m, ∃ k, tick b span m = .ok () k) (n : Nat)
    (inner span : Span) (m : Machine) :
    ∃ k, block b n [.loop [] inner span] m = .error .outOfFuel k := by
  -- The list and the loop take a unit of fuel each, and the rounds what is left.
  cases n with
  | zero => exact ⟨m, by rw [block_zero]; rfl⟩
  | succ n =>
    rw [block]
    cases n with
    | zero => exact ⟨m, bind_eq_of_error (by rw [stmt_zero]; rfl)⟩
    | succ n =>
      obtain ⟨k, hk⟩ := hb span m
      obtain ⟨l, hl⟩ := rounds_nil hb n span k
      refine ⟨l, bind_eq_of_error ?_⟩
      rw [stmt.eq_def]
      dsimp only
      rw [show (Stmt.loop [] inner span).span = span from rfl, bind_eq_of_ok hk]
      exact hl

end Exec

namespace Machine

open Exec

/-- Runs whose steps are counted alike, and whose calls are bounded alike, are the same. -/
theorem run_congr {b b' : Budget} (htick : tick b = tick b') (hdepth : b.depth = b'.depth)
    (hc : b'.cancelled = b.cancelled) (n : Nat) (p : Program) (m : Machine) :
    run b n p m = run b' n p m := by
  have hcheck : checkDepth b = checkDepth b' := by
    unfold checkDepth
    rw [hdepth]
  have hblock := ((truncation (fun _ => False) b b'
    (fun span => htick ▸ .of_self (grows_tick b span) fun _ => rfl)
    (fun span => hcheck ▸ .of_self (grows_checkDepth b span) fun _ => rfl)).agree
      (.throw _) n).block p
  rw [Stmt.allRespan_id] at hblock
  have hshort := shortens_run hc hblock m
  -- Nothing cuts the one run short, so the other is the same.
  cases hr : run b n p m with
  | ok u k =>
    rw [hr] at hshort
    obtain ⟨c, hc, -⟩ := hshort
    exact hc.symm
  | error halt k =>
    rw [hr] at hshort
    rcases hshort with hsame | ⟨hcut, -⟩
    · exact hsame.symm
    · exact hcut.elim

/-- A run ends in the same way as any that is the same with all fuel. -/
theorem EndsIn.congr {b b' : Budget} {p : Program} {m : Machine}
    {r : EStateM.Result Halt Machine Unit} (h : ∀ n, run b n p m = run b' n p m)
    (hr : EndsIn b p m r) : EndsIn b' p m r := by
  obtain ⟨n, hn⟩ := hr.fuel
  exact ⟨hr.finished, n, fun fuel hfuel => (h fuel).symm.trans (hn fuel hfuel)⟩

theorem endsIn_of_greatest {b : Budget} (h : b.steps = Int64.maxValue) (p : Program) (m : Machine)
    (r : EStateM.Result Halt Machine Unit) :
    EndsIn b p m r ↔ EndsIn { b with steps := 0 } p m r := by
  have hsame (n : Nat) : run b n p m = run { b with steps := 0 } n p m :=
    run_congr (tick_of_greatest h) rfl rfl n p m
  exact ⟨.congr hsame, .congr fun n => (hsame n).symm⟩

end Machine

/-- A positive bound on the steps makes every program end, on every machine and whatever the bound
on calls, unless it is the greatest number: then the program does what it does without a bound.
Where it ends, the counter is at most one beyond the bound, or beyond where it was if that was
further; and the program was stopped for want of steps exactly if steps were taken and the counter
ended beyond the bound. -/
theorem bounded_runs_end {b : Budget} (hb : 0 < b.steps) (p : Program) (m : Machine) :
    (b.steps < Int64.maxValue → ∃ r, Machine.EndsIn b p m r) ∧
    (b.steps = Int64.maxValue →
      ∀ r, Machine.EndsIn b p m r ↔ Machine.EndsIn { b with steps := 0 } p m r) ∧
    ∀ r, Machine.EndsIn b p m r →
      (stateOf r).counter.toInt ≤ max m.counter.toInt b.steps.toInt + 1 ∧
        ((∃ span n, r = .error (.fault ⟨.stepLimit b.steps, span⟩) n) ↔
          m.steps < (stateOf r).steps ∧ b.steps < (stateOf r).counter) := by
  refine ⟨fun hmax => ?_, fun hmax => Machine.endsIn_of_greatest hmax p m, fun r hr => ?_⟩
  · obtain ⟨n, hn⟩ := Machine.exists_finished_of_stops (Budget.stops_of_steps hb hmax) p m
    exact ⟨_, Machine.endsIn_run hn⟩
  · obtain ⟨n, hn⟩ := hr.exists_run
    have haccounts := Machine.accounts_run hb n p m
    rw [hn] at haccounts
    -- The counter stayed within the bound, or did not move at all, unless it was stopped for it.
    have hcovered {k : Machine} (hcovers : b.Covers m.steps k.steps) :
        k.counter.toInt ≤ max m.counter.toInt b.steps.toInt + 1 ∧
          ¬ (m.steps < k.steps ∧ b.steps < k.counter) := by
      refine ⟨Int.le_trans hcovers.counter_le (Int.le_add_one (Int.le_refl _)), ?_⟩
      rintro ⟨hlt, hbeyond⟩
      rcases hcovers.within with heq | hwithin
      · omega
      · exact Int64.not_lt.2 hwithin hbeyond
    cases r with
    | ok u k =>
      obtain ⟨hle, hnot⟩ := hcovered (haccounts.of_ok rfl).2
      refine ⟨hle, fun ⟨_, _, h⟩ => ?_, fun h => absurd h hnot⟩
      cases h
    | error halt k =>
      rcases haccounts.of_error rfl with ⟨⟨span, hspan⟩, hexceeds⟩ | ⟨hother, hcovers⟩
      · refine ⟨hexceeds.counter_le, fun _ => ⟨hexceeds.lt, hexceeds.beyond⟩, fun _ => ?_⟩
        exact ⟨span, k, by rw [hspan]⟩
      · obtain ⟨hle, hnot⟩ := hcovered hcovers
        refine ⟨hle, fun ⟨span, n, h⟩ => ?_, fun h => absurd h hnot⟩
        cases h
        exact absurd ⟨span, rfl⟩ (hother b.steps)

/-- A loop with nothing in it is stopped by the step that its bound does not allow. -/
theorem empty_loop_is_stopped :
    let p : Program := [.loop [] .origin .origin]
    let b : Budget := { steps := 3, depth := 0 }
    0 < b.steps ∧ b.steps < Int64.maxValue ∧
      ∃ r, Machine.EndsIn b p {} r ∧ (stateOf r).steps = 4 ∧
        (stateOf r).counter.toInt ≤ max (Machine.counter {}).toInt b.steps.toInt + 1 ∧
        ∃ span n, r = .error (.fault ⟨.stepLimit b.steps, span⟩) n := by
  intro p b
  have hb : 0 < b.steps := by decide
  have hmax : b.steps < Int64.maxValue := by decide
  obtain ⟨hends, -, hcounts⟩ := bounded_runs_end hb p {}
  obtain ⟨r, hr⟩ := hends hmax
  obtain ⟨hle, hlimit⟩ := hcounts r hr
  have hfinished : finished (Machine.run b 20 p {}) = true := by decide +kernel
  have hsteps : (stateOf r).steps = 4 := by
    rw [hr.unique (Machine.endsIn_run hfinished)]
    decide +kernel
  refine ⟨hb, hmax, r, hr, hsteps, hle, hlimit.2 ?_⟩
  unfold Machine.counter
  rw [hsteps]
  decide

/-- Bounded by the greatest number, the loop goes on for ever. -/
theorem empty_loop_is_never_stopped :
    let p : Program := [.loop [] ⟨5, 8⟩ ⟨0, 8⟩]
    let b : Budget := { steps := Int64.maxValue }
    Program.ofSource (utf8 "loop \x7b \x7d") = .ok p ∧ 0 < b.steps ∧
      ∀ r, ¬ Machine.EndsIn b p {} r := by
  intro p b
  refine ⟨rfl, by decide, fun r hr => ?_⟩
  have htick (span : Span) (m : Machine) : ∃ k, Exec.tick b span m = .ok () k := by
    refine ⟨{ m with steps := m.steps + 1 }, ?_⟩
    rw [Exec.tick_of_greatest rfl, Exec.tick_eq, if_neg fun h => Int64.lt_irrefl h.1]
    split <;> rfl
  obtain ⟨n, hn⟩ := hr.exists_run
  obtain ⟨k, hk⟩ := Exec.block_empty_loop htick n ⟨5, 8⟩ ⟨0, 8⟩ {}
  have hfinished := hr.finished
  rw [← hn, Machine.run_of_not_cancelled rfl, hk] at hfinished
  cases hfinished

end Scriptlet
