import Scriptlet.Proofs.Machine.Truncation

/-!
# Coupling: two runs in step on machines that differ

Two machines are coupled if they differ only in something that the actions at hand do not look at,
such as the variables of a caller or the text of a function. They share their streams and counters,
and stay coupled when these go on in the same way. An action done on both then ends the same on both
and leaves coupled machines.
-/

namespace Scriptlet

/-- A relation between machines that have the same streams and counters, and which does not depend
on what these are. -/
structure Coupling where
  Rel : Machine → Machine → Prop
  input : ∀ {m m'}, Rel m m' → m'.input = m.input
  output : ∀ {m m'}, Rel m m' → m'.output = m.output
  steps : ∀ {m m'}, Rel m m' → m'.steps = m.steps
  depth : ∀ {m m'}, Rel m m' → m'.depth = m.depth
  withInput : ∀ {m m'}, Rel m m' → ∀ input, Rel { m with input } { m' with input }
  withOutput : ∀ {m m'}, Rel m m' → ∀ output, Rel { m with output } { m' with output }
  withSteps : ∀ {m m'}, Rel m m' → ∀ steps, Rel { m with steps } { m' with steps }

/-- The outcomes are both values, in the relation `P`, or both the same stop; the machines left are
coupled. -/
def Alike (R : Coupling) {α β : Type} (P : α → β → Prop) (r : EStateM.Result Halt Machine α)
    (r' : EStateM.Result Halt Machine β) : Prop :=
  match r with
  | .ok a m => ∃ c m', r' = .ok c m' ∧ P a c ∧ R.Rel m m'
  | .error halt m => ∃ m', r' = .error halt m' ∧ R.Rel m m'

namespace Exec

variable {R : Coupling} {α β γ δ : Type} {P : α → β → Prop} {Q : γ → δ → Prop} {m m' : Machine}

/-- After results that belong together the two actions go on, each on the machine it was left. -/
theorem alike_bind {x : Exec α} {y : Exec β} {p : α → Exec γ} {q : β → Exec δ}
    (hx : Alike R P (x m) (y m'))
    (hp : ∀ a c k k', x m = .ok a k → P a c → R.Rel k k' → Alike R Q (p a k) (q c k')) :
    Alike R Q ((x >>= p) m) ((y >>= q) m') := by
  cases hr : x m with
  | ok a k =>
    rw [hr] at hx
    obtain ⟨c, k', hc, hac, hk⟩ := hx
    rw [bind_eq_of_ok hr, bind_eq_of_ok hc]
    exact hp a c k k' hr hac hk
  | error halt k =>
    rw [hr] at hx
    obtain ⟨k', hk', hk⟩ := hx
    rw [bind_eq_of_error hr, bind_eq_of_error hk']
    exact ⟨k', rfl, hk⟩

/-- After equal results the two actions go on with one value. -/
theorem alike_seq {x y : Exec α} {p : α → Exec β} {q : α → Exec γ} {P : β → γ → Prop}
    (hx : Alike R Eq (x m) (y m'))
    (hp : ∀ a k k', x m = .ok a k → R.Rel k k' → Alike R P (p a k) (q a k')) :
    Alike R P ((x >>= p) m) ((y >>= q) m') := by
  refine alike_bind hx fun a c k k' hr hac hk => ?_
  subst hac
  exact hp a k k' hr hk

/-- On coupled machines the two actions end alike. -/
def Coupled (R : Coupling) (P : α → β → Prop) (x : Exec α) (y : Exec β) : Prop :=
  ∀ m m', R.Rel m m' → Alike R P (x m) (y m')

namespace Coupled

theorem pure {a : α} {c : β} (h : P a c) : Coupled R P (pure a) (pure c) :=
  fun _ m' hm => ⟨c, m', rfl, h, hm⟩

theorem throw (halt : Halt) : Coupled R P (throw halt) (throw halt) := fun _ m' hm => ⟨m', rfl, hm⟩

theorem bind {x : Exec α} {y : Exec β} {p : α → Exec γ} {q : β → Exec δ} (hx : Coupled R P x y)
    (hp : ∀ a c, P a c → Coupled R Q (p a) (q c)) : Coupled R Q (x >>= p) (y >>= q) :=
  fun m m' hm => alike_bind (hx m m' hm) fun a c k k' _ hac hk => hp a c hac k k' hk

theorem get {P : Machine → Machine → Prop} (h : ∀ {m m'}, R.Rel m m' → P m m') :
    Coupled R P (get : Exec Machine) get := fun _ m' hm => ⟨m', m', rfl, h hm, hm⟩

theorem modify {f g : Machine → Machine} (h : ∀ {m m'}, R.Rel m m' → R.Rel (f m) (g m')) :
    Coupled R Eq (modify f : Exec PUnit) (modify g) := fun _ m' hm => ⟨⟨⟩, g m', rfl, rfl, h hm⟩

theorem write (span : Span) (text : Bytes) :
    Coupled R Eq (write span text) (write span text) := by
  refine (get R.output).bind fun m m' hm => ?_
  rw [hm]
  generalize m.output.write text = written
  obtain ⟨taken, sink⟩ := written
  refine Coupled.bind (P := Eq) (.modify fun h => R.withOutput h sink) fun _ _ _ => ?_
  cases taken with
  | ok u => exact .pure rfl
  | error reason => exact .throw _

theorem readLine (span : Span) : Coupled R Eq (readLine span) (readLine span) := by
  refine (get R.input).bind fun m m' hm => ?_
  rw [hm]
  generalize m.input.readLine = read
  obtain ⟨line, rest⟩ := read
  refine Coupled.bind (P := Eq) (.modify fun h => R.withInput h rest) fun _ _ _ => ?_
  cases line with
  | ok text => exact .pure rfl
  | error reason => exact .throw _

theorem checkDepth (b : Budget) (span : Span) :
    Coupled R Eq (checkDepth b span) (checkDepth b span) := by
  intro m m' hm
  rw [checkDepth_eq, checkDepth_eq, R.depth hm]
  split
  · exact ⟨m', rfl, hm⟩
  · exact ⟨(), m', rfl, rfl, hm⟩

/-- A step is counted alike if coupled machines are cancelled alike. -/
theorem tick {b : Budget} (hb : ∀ {m m'}, R.Rel m m' → b.cancelled m' = b.cancelled m)
    (span : Span) : Coupled R Eq (tick b span) (tick b span) := by
  intro m m' hm
  have hnext := R.withSteps hm (m.steps + 1)
  rw [tick_eq, tick_eq, R.steps hm, hb hnext]
  split
  · exact ⟨_, rfl, hnext⟩
  · split
    · split
      · exact ⟨_, rfl, hnext⟩
      · exact ⟨(), _, rfl, rfl, hnext⟩
    · exact ⟨(), _, rfl, rfl, hnext⟩

end Coupled

end Exec

/-- What is done without a look at names ends alike on coupled machines. -/
def Coupling.pairing (R : Coupling) : Exec.Pairing id where
  Rel P x y := Exec.Coupled R P x y
  pure h := .pure h
  bind hx hp := hx.bind hp
  stuck := .throw _
  fail _ _ := .throw _
  write span text := .write span text
  readLine span := .readLine span

namespace Exec.Coupled

variable {R : Coupling}

theorem seq {α β γ : Type} {P : β → γ → Prop} {x y : Exec α} {p : α → Exec β} {q : α → Exec γ}
    (hx : Coupled R Eq x y) (hp : ∀ a, Coupled R P (p a) (q a)) :
    Coupled R P (x >>= p) (y >>= q) := R.pairing.seq hx hp

theorem branch {α β : Type} {P : α → β → Prop} {p : Prop} [Decidable p] {x x' : Exec α}
    {y y' : Exec β} (hx : Coupled R P x y) (hx' : Coupled R P x' y') :
    Coupled R P (if p then x else x') (if p then y else y') := R.pairing.branch hx hx'

theorem operate (op : BinOp) (left right : Expr) (a b : Value) :
    Coupled R Eq (operate op left right a b) (operate op left right a b) := by
  have h : Coupled R _ _ _ := R.pairing.operate op left right a b
  rw [Expr.respan_id, Expr.respan_id] at h
  exact h

theorem itemAt (place : Expr) (items : List Value) (i : Int64) :
    Coupled R Eq (itemAt place items i) (itemAt place items i) := by
  have h : Coupled R _ _ _ := R.pairing.itemAt place items i
  rw [Expr.respan_id] at h
  exact h

theorem setItem (place value : Expr) (elem : Ty) (items : List Value) (i : Int64) (v : Value) :
    Coupled R Eq (setItem place value elem items i v) (setItem place value elem items i v) := by
  have h : Coupled R _ _ _ := R.pairing.setItem place value elem items i v
  rw [Expr.respan_id, Expr.respan_id] at h
  exact h

theorem bindParams (params : List Param) (exprs : List Expr) (values : List Value) :
    Coupled R Eq (bindParams params exprs values []) (bindParams params exprs values []) := by
  have h : Coupled R _ _ _ := R.pairing.bindParams params exprs values []
  have hparams : params.map (Param.respan id) = params := List.map_id params
  rw [Expr.allRespan_id, hparams] at h
  exact h

theorem callBuiltin (wanted : Bool) (f : Builtin) (name : Bytes) (span : Span) (args : List Expr)
    (values : List Value) :
    Coupled R Eq (callBuiltin wanted f name span args values)
      (callBuiltin wanted f name span args values) := by
  have h : Coupled R _ _ _ := R.pairing.callBuiltin wanted f name span args values
  rw [Expr.allRespan_id] at h
  exact h

/-- A call gives back the same from the same flow. -/
theorem returned (wanted : Bool) (name : Bytes) (span : Span) (result : Option Ty) (flow : Flow) :
    Coupled R Eq
      (match flow with
        | .ret v => returned wanted name span result v
        | _ => returned wanted name span result none)
      (match flow with
        | .ret v => returned wanted name span result v
        | _ => returned wanted name span result none) := by
  cases flow with
  | next | leave => exact R.pairing.returned wanted name span result none
  | ret v => exact R.pairing.returned wanted name span result v

end Exec.Coupled
end Scriptlet
