import Scriptlet.Proofs.Machine.Truncation

/-!
# Narrowing: budgets that allow less

A run can be stopped from outside at its steps only, when they are counted: for want of steps, or
because it is cancelled. If one budget allows every step that another allows, a run on the narrower
one does what it does on the wider one, up to the step that is not allowed.
-/

namespace Scriptlet

/-- The halt comes from the counting of a step. -/
def Halt.FromTick : Halt → Prop
  | .fault d => (∃ steps, d.fault = .stepLimit steps) ∨ ∃ reason, d.fault = .cancelled reason
  | .exit _ | .stuck | .outOfFuel => False

theorem Fault.Own.not_fromTick {fault : Fault} (h : fault.Own) (span : Span) :
    ¬ Halt.FromTick (.fault ⟨fault, span⟩) := by
  rintro (⟨steps, rfl⟩ | ⟨reason, rfl⟩)
  · exact h.budget rfl
  · exact h.budget rfl

/-! ## Narrower budgets -/

/-- The second budget allows every step that the first allows, and as many calls. -/
structure Budget.Narrows (b b' : Budget) : Prop where
  depth : b.depth = b'.depth
  tick : ∀ span m k, Exec.tick b span m = .ok () k → Exec.tick b' span m = .ok () k

namespace Exec

variable {α β : Type} {b b' : Budget} {n : Nat} {m k : Machine} {halt : Halt}

theorem of_tick_error {span : Span} (h : tick b span m = .error halt k) :
    halt.FromTick ∧ k = { m with steps := m.steps + 1 } := by
  have hstate := stateOf_tick b span m
  rw [h] at hstate
  refine ⟨?_, hstate⟩
  rw [tick_eq] at h
  split at h
  · cases h; exact .inl ⟨_, rfl⟩
  · split at h
    · split at h
      · cases h; exact .inr ⟨_, rfl⟩
      · cases h
    · cases h

namespace Truncates

variable {cut : Halt → Prop} {x y : Exec α} {a : α}

theorem precedes_of_ok (h : Truncates cut Eq x y) (hy : y m = .ok a k) : m.Precedes k := by
  have hstate := precedes_stateOf h.grows m
  rw [hy] at hstate
  exact hstate

/-- What is not cut short is done by both actions. -/
theorem of_ok (h : Truncates cut Eq x y) (hx : x m = .ok a k) : y m = .ok a k := by
  have hshort := h.shortens m
  rw [hx] at hshort
  obtain ⟨c, hc, rfl⟩ := hshort
  exact hc

end Truncates

theorem truncates_tick_of_narrows (h : b.Narrows b') (span : Span) :
    Truncates Halt.FromTick Eq (tick b span) (tick b' span) := by
  refine ⟨(grows_tick b' span).mono fun a _ => ⟨a, rfl⟩, fun m => ?_⟩
  cases hr : tick b span m with
  | ok a k => exact ⟨a, h.tick span m k hr, rfl⟩
  | error halt k =>
    obtain ⟨hhalt, rfl⟩ := of_tick_error hr
    refine .inr ⟨hhalt, ?_⟩
    rw [stateOf_tick]
    exact .refl _

theorem checkDepth_of_narrows (h : b.Narrows b') (span : Span) :
    checkDepth b span = checkDepth b' span := by
  funext m
  rw [checkDepth_eq, checkDepth_eq, h.depth]

/-- The action is stopped at a tick, with at most so many steps counted. -/
def CutBy (limit : Nat) (r : EStateM.Result Halt Machine α) : Prop :=
  ∃ halt k, halt.FromTick ∧ r = .error halt k ∧ k.steps ≤ limit

theorem CutBy.mono {limit limit' : Nat} {r : EStateM.Result Halt Machine α} (h : CutBy limit r)
    (hle : limit ≤ limit') : CutBy limit' r := by
  obtain ⟨halt, k, hhalt, hr, hk⟩ := h
  exact ⟨halt, k, hhalt, hr, Nat.le_trans hk hle⟩

theorem CutBy.bind {limit : Nat} {x : Exec α} (h : CutBy limit (x m)) (f : α → Exec β) :
    CutBy limit ((x >>= f) m) := by
  obtain ⟨halt, k, hhalt, hx, hk⟩ := h
  exact ⟨halt, k, hhalt, bind_eq_of_error hx, hk⟩

/-- What is completed on the wider budget is completed on the narrower one, or cut short there. -/
theorem Truncates.follows {x y : Exec α} {a : α} (h : Truncates Halt.FromTick Eq x y)
    (hy : y m = .ok a k) : x m = .ok a k ∨ CutBy k.steps (x m) := by
  have hshort := h.shortens m
  rw [hy] at hshort
  cases hx : x m with
  | ok c l =>
    rw [hx] at hshort
    obtain ⟨d, hd, rfl⟩ := hshort
    cases hd
    exact .inl rfl
  | error halt l =>
    rw [hx] at hshort
    rcases hshort with hsame | ⟨hcut, hfurther⟩
    · cases hsame
    · exact .inr ⟨halt, l, hcut, rfl, hfurther.steps⟩

/-- With the same fuel, the run on the narrower budget is cut short at a tick or is the same. -/
structure NarrowAt (b b' : Budget) (n : Nat) : Prop where
  eval : ∀ hint e, Truncates Halt.FromTick Eq (eval b n hint e) (eval b' n hint e)
  items : ∀ t es, Truncates Halt.FromTick Eq (evalItems b n t es) (evalItems b' n t es)
  args : ∀ hints es, Truncates Halt.FromTick Eq (evalArgs b n hints es) (evalArgs b' n hints es)
  call : ∀ wanted name nameSpan args span, Truncates Halt.FromTick Eq
    (call b n wanted name nameSpan args span) (call b' n wanted name nameSpan args span)
  stmt : ∀ s, Truncates Halt.FromTick Eq (stmt b n s) (stmt b' n s)
  block : ∀ ss, Truncates Halt.FromTick Eq (block b n ss) (block b' n ss)
  rounds : ∀ body span,
    Truncates Halt.FromTick Eq (rounds b n body span) (rounds b' n body span)

theorem narrowAt (h : b.Narrows b') (n : Nat) : NarrowAt b b' n := by
  have hagree := (truncation Halt.FromTick b b' (truncates_tick_of_narrows h)
    fun span => checkDepth_of_narrows h span ▸
      .of_self (grows_checkDepth b span) fun _ => rfl).agree (.throw _) n
  constructor
  · intro hint e
    have heval := hagree.eval hint e
    rw [Expr.respan_id] at heval
    exact heval
  · intro t es
    have hitems := hagree.items t es
    rw [Expr.allRespan_id] at hitems
    exact hitems
  · intro hints es
    have hargs := hagree.args hints es
    rw [Expr.allRespan_id] at hargs
    exact hargs
  · intro wanted name nameSpan args span
    have hcall := hagree.call wanted name nameSpan args span
    rw [Expr.allRespan_id] at hcall
    exact hcall
  · intro s
    have hstmt := hagree.stmt s
    rw [Stmt.respan_id] at hstmt
    exact hstmt
  · intro ss
    have hblock := hagree.block ss
    rw [Stmt.allRespan_id] at hblock
    exact hblock
  · intro body span
    have hrounds := hagree.rounds body span
    rw [Stmt.allRespan_id] at hrounds
    exact hrounds

/-! ## Actions without ticks -/

/-- What counts no steps is not stopped by their counting. -/
def tickless : Comparison id where
  Rel P x _ := ∀ m, Ends (x m) (fun a _ => ∃ c, P a c) (fun halt _ => ¬ halt.FromTick)
  pure h _ := ⟨_, h⟩
  bind hx hp m := by
    rw [Ends.bind_iff]
    exact (hx m).mono (fun a k ha => ha.elim fun c hc => hp a c hc k) (fun _ _ h => h)
  stuck _ := fun h => h
  fail hown span _ := hown.not_fromTick span
  look m := ⟨m, m.sameNames_id⟩
  write span text m := by
    have hbroken (reason : Bytes) : ¬ Halt.FromTick (.fault ⟨.writeFailed reason, span⟩) :=
      Fault.Own.not_fromTick ⟨Code.noConfusion, Code.noConfusion⟩ span
    unfold write
    rw [Ends.bind_iff, Ends.get_iff, Ends.bind_iff, Ends.modify_iff]
    cases (m.output.write text).fst with
    | ok u => exact ⟨(), rfl⟩
    | error reason => exact hbroken reason
  readLine span m := by
    have hbroken (reason : Bytes) : ¬ Halt.FromTick (.fault ⟨.readFailed reason, span⟩) :=
      Fault.Own.not_fromTick ⟨Code.noConfusion, Code.noConfusion⟩ span
    unfold readLine
    rw [Ends.bind_iff, Ends.get_iff, Ends.bind_iff, Ends.modify_iff]
    cases m.input.readLine.fst with
    | ok text => exact ⟨text, rfl⟩
    | error reason => exact hbroken reason

theorem not_fromTick_of_tickless {P : α → β → Prop} {x : Exec α} {y : Exec β}
    (hx : tickless.Rel P x y) (h : x m = .error halt k) : ¬ halt.FromTick :=
  Ends.of_error (hx m) h

theorem checkDepth_tickless {span : Span} (h : checkDepth b span m = .error halt k) :
    ¬ halt.FromTick := by
  rw [checkDepth_eq] at h
  split at h
  · cases h
    rintro (⟨steps, hsteps⟩ | ⟨reason, hreason⟩)
    · cases hsteps
    · cases hreason
  · cases h

theorem fail_tickless {fault : Fault} {span : Span} (hown : fault.Own)
    (h : (fail fault span : Exec α) m = .error halt k) : ¬ halt.FromTick := by
  cases h
  exact hown.not_fromTick span

theorem mismatch_tickless {need : Need} {got : Value} {span : Span}
    (h : (mismatch need got span : Exec α) m = .error halt k) : ¬ halt.FromTick :=
  fail_tickless ⟨Code.noConfusion, Code.noConfusion⟩ h

theorem callee_state {wanted : Bool} {name : Bytes} {nameSpan span : Span} {argc : Nat}
    {f : Function} (h : callee wanted name nameSpan span argc m = .ok f k) : k = m := by
  unfold callee at h
  rw [bind_eq_of_ok (show (get : Exec Machine) m = .ok m m from rfl)] at h
  cases hf : m.function? name with
  | none => rw [hf] at h; cases h
  | some g =>
    rw [hf] at h
    dsimp only at h
    split at h
    · cases h
    · split at h
      · cases h
      · cases h; rfl

theorem bindParams_state {params : List Param} {exprs : List Expr} {values : List Value}
    {own own' : Scope} (h : bindParams params exprs values own m = .ok own' k) : k = m := by
  fun_induction bindParams params exprs values own with
  | case1 => cases h; rfl
  | case2 p params e exprs v values own htype ih => exact ih h
  | case3 | case4 => cases h

theorem checkDepth_state {span : Span} {u : Unit} (h : checkDepth b span m = .ok u k) : k = m := by
  rw [checkDepth_eq] at h
  split at h
  · cases h
  · cases h; rfl

theorem of_inCall_error {own : Scope} {x : Exec α} (h : inCall own x m = .error halt k) :
    ∃ o, x { m with locals := some own, depth := m.depth + 1 } = .error halt o ∧
      k = { o with locals := m.locals, depth := o.depth - 1 } := by
  unfold inCall at h
  cases hx : x { m with locals := some own, depth := m.depth + 1 } with
  | ok a o => rw [hx] at h; cases h
  | error e o => rw [hx] at h; cases h; exact ⟨o, rfl, rfl⟩

/-- Handing on only a part of what an action gives does not change how it stops. -/
theorem of_map_error {x : Exec α} {f : α → β} (h : (do return f (← x)) m = .error halt k) :
    x m = .error halt k := by
  rcases of_bind_error h with hx | ⟨a, l, -, hpure⟩
  · exact hx
  · cases hpure

end Exec

end Scriptlet
