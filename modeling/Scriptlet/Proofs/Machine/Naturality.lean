import Scriptlet.Proofs.Machine.Truncation

/-!
# Naturality: places have no influence on a run

A run carries places along, in the functions it declares and in the faults it ends with, but never
looks at them. Moving a program and the machine it runs on moves the outcome and changes nothing
else.
-/

namespace Scriptlet

variable {f : Span → Span}

namespace Machine

/-- The machine with every span in its functions moved. -/
def respan (f : Span → Span) (m : Machine) : Machine :=
  { m with functions := m.functions.map fun d => (d.1, d.2.respan f) }

theorem lookup_respan (name : Bytes) (ds : List (Bytes × Function)) :
    (ds.map fun d => (d.1, d.2.respan f)).lookup name =
      (ds.lookup name).map (Function.respan f) := by
  induction ds with
  | nil => rfl
  | cons d rest ih =>
    obtain ⟨name', g⟩ := d
    simp only [List.map_cons, List.lookup_cons, ih]
    cases name == name' with
    | true => rfl
    | false => rfl

theorem sameNames_respan (m : Machine) : m.SameNames f (m.respan f) :=
  ⟨fun _ => rfl, fun name => lookup_respan name m.functions⟩

theorem respan_declare (name : Bytes) (v : Value) (m : Machine) :
    (m.respan f).declare name v = (m.declare name v).respan f := by
  unfold declare respan
  cases m.locals with
  | none => rfl
  | some own => rfl

theorem respan_assign (name : Bytes) (v : Value) (m : Machine) :
    (m.respan f).assign name v = (m.assign name v).respan f := by
  unfold assign respan
  cases m.locals with
  | none => rfl
  | some own =>
    dsimp only
    cases own.find? name with
    | none => rfl
    | some slot => rfl

theorem respan_define (name : Bytes) (g : Function) (m : Machine) :
    (m.respan f).define name (g.respan f) = (m.define name g).respan f := by
  unfold define respan
  simp only [List.map_cons, List.filter_map]
  rfl

end Machine

/-- The outcome with every span moved. -/
def movedBy (f : Span → Span) {α : Type} :
    EStateM.Result Halt Machine α → EStateM.Result Halt Machine α
  | .ok a m => .ok a (m.respan f)
  | .error h m => .error (h.respan f) (m.respan f)

theorem stateOf_movedBy {α : Type} (r : EStateM.Result Halt Machine α) :
    stateOf (movedBy f r) = (stateOf r).respan f := by
  cases r with
  | ok a m => rfl
  | error h m => rfl

/-- Whether and why a run is cancelled does not depend on places. -/
def Budget.Blind (b : Budget) : Prop :=
  ∀ (f : Span → Span) (m : Machine), b.cancelled (m.respan f) = b.cancelled m

theorem Fault.Own.respan {fault : Fault} (h : fault.Own) : fault.respan f = fault :=
  Fault.respan_of_code h.text

namespace Exec

open Machine

variable {α β γ δ : Type}

/-- On the moved machine the second action does what the first does, moved. -/
def Natural (f : Span → Span) (P : α → β → Prop) (x : Exec α) (y : Exec β) : Prop :=
  ∀ m, match x m with
    | .ok a n => ∃ c, y (m.respan f) = .ok c (n.respan f) ∧ P a c
    | .error h n => y (m.respan f) = .error (h.respan f) (n.respan f)

namespace Natural

variable {P : α → β → Prop} {Q : γ → δ → Prop}

theorem pure {a : α} {c : β} (h : P a c) : Natural f P (pure a) (pure c) := fun _ => ⟨c, rfl, h⟩

theorem bind {x : Exec α} {y : Exec β} {p : α → Exec γ} {q : β → Exec δ}
    (hx : Natural f P x y) (hp : ∀ a c, P a c → Natural f Q (p a) (q c)) :
    Natural f Q (x >>= p) (y >>= q) := by
  intro m
  have hxm := hx m
  cases hr : x m with
  | ok a n =>
    rw [hr] at hxm
    obtain ⟨c, hc, hac⟩ := hxm
    rw [bind_eq_of_ok hr, bind_eq_of_ok hc]
    exact hp a c hac n
  | error h n =>
    rw [hr] at hxm
    rw [bind_eq_of_error hr]
    exact bind_eq_of_error hxm

theorem branch {p : Prop} [Decidable p] {x x' : Exec α} {y y' : Exec β} (hx : Natural f P x y)
    (hx' : Natural f P x' y') : Natural f P (if p then x else x') (if p then y else y') := by
  by_cases hp : p
  · rw [if_pos hp, if_pos hp]
    exact hx
  · rw [if_neg hp, if_neg hp]
    exact hx'

theorem fail {fault : Fault} (h : fault.respan f = fault) (span : Span) :
    Natural f P (fail fault span) (fail fault (f span)) := by
  intro m
  change (Exec.fail fault (f span) : Exec β) (m.respan f) =
    .error (.fault ⟨fault.respan f, f span⟩) (m.respan f)
  rw [h]
  rfl

theorem get {P : Machine → Machine → Prop} (h : ∀ m, P m (m.respan f)) :
    Natural f P (get : Exec Machine) get := fun m => ⟨m.respan f, rfl, h m⟩

theorem modify {g g' : Machine → Machine} (h : ∀ m : Machine, g' (m.respan f) = (g m).respan f) :
    Natural f Eq (modify g : Exec PUnit) (modify g') := by
  intro m
  refine ⟨⟨⟩, ?_, rfl⟩
  change EStateM.Result.ok PUnit.unit (g' (m.respan f)) = .ok PUnit.unit ((g m).respan f)
  rw [h]

theorem inCall {x : Exec α} {y : Exec β} (h : Natural f P x y) (own : Scope) :
    Natural f P (inCall own x) (inCall own y) := by
  intro m
  have hx := h { m with locals := some own, depth := m.depth + 1 }
  have henter : ({ m with locals := some own, depth := m.depth + 1 } : Machine).respan f =
      { m.respan f with locals := some own, depth := (m.respan f).depth + 1 } := rfl
  rw [henter] at hx
  unfold Exec.inCall
  cases hr : x { m with locals := some own, depth := m.depth + 1 } with
  | ok a n =>
    rw [hr] at hx
    obtain ⟨c, hc, hac⟩ := hx
    rw [hc]
    exact ⟨c, rfl, hac⟩
  | error e n =>
    rw [hr] at hx
    rw [hx]
    rfl

/-- With equal results, the second action is the first, moved. -/
theorem eq_movedBy {x y : Exec α} (h : Natural f Eq x y) (m : Machine) :
    y (m.respan f) = movedBy f (x m) := by
  have hm := h m
  cases hr : x m with
  | ok a n =>
    rw [hr] at hm
    obtain ⟨c, hc, rfl⟩ := hm
    exact hc
  | error e n =>
    rw [hr] at hm
    exact hm

end Natural

theorem natural_write (span : Span) (text : Bytes) :
    Natural f Eq (write span text) (write (f span) text) := by
  have hlook : Natural f (fun m m' => m'.output = m.output) (get : Exec Machine) get :=
    .get fun _ => rfl
  refine hlook.bind fun m m' hm => ?_
  rw [hm]
  generalize m.output.write text = written
  obtain ⟨taken, sink⟩ := written
  refine Natural.bind (.modify fun _ => rfl) fun _ _ _ => ?_
  cases taken with
  | ok u => exact .pure rfl
  | error reason => exact .fail rfl span

theorem natural_readLine (span : Span) :
    Natural f Eq (readLine span) (readLine (f span)) := by
  have hlook : Natural f (fun m m' => m'.input = m.input) (get : Exec Machine) get :=
    .get fun _ => rfl
  refine hlook.bind fun m m' hm => ?_
  rw [hm]
  generalize m.input.readLine = read
  obtain ⟨line, rest⟩ := read
  refine Natural.bind (.modify fun _ => rfl) fun _ _ _ => ?_
  cases line with
  | ok text => exact .pure rfl
  | error reason => exact .fail rfl span

theorem natural_tick {b : Budget} (hb : b.Blind) (span : Span) :
    Natural f Eq (tick b span) (tick b (f span)) := by
  refine Natural.bind (.modify fun _ => rfl) fun _ _ _ => ?_
  have hlook : Natural f (fun m m' => m' = m.respan f) (get : Exec Machine) get := .get fun _ => rfl
  refine hlook.bind fun m m' hm => ?_
  subst hm
  rw [hb f m, show (m.respan f).counter = m.counter from rfl]
  refine .branch (.fail rfl span) (.branch ?_ (.pure rfl))
  cases b.cancelled m with
  | none => exact .pure rfl
  | some reason => exact .fail rfl span

theorem natural_checkDepth (b : Budget) (span : Span) :
    Natural f Eq (checkDepth b span) (checkDepth b (f span)) := by
  have hlook : Natural f (fun m m' => m'.depth = m.depth) (get : Exec Machine) get :=
    .get fun _ => rfl
  refine hlook.bind fun m m' hm => ?_
  rw [hm]
  exact .branch (.fail rfl span) (.pure rfl)

/-- Moving the places does to what is done on a machine what it does to the machine. -/
def naturality (f : Span → Span) {b : Budget} (hb : b.Blind) : Congruence f b b where
  Rel P x y := Natural f P x y
  pure h := .pure h
  bind hx hp := .bind hx hp
  stuck := fun _ => rfl
  fail h span := .fail h.respan span
  look := .get sameNames_respan
  write span text := natural_write span text
  readLine span := natural_readLine span
  exit _ := fun _ => rfl
  tick span := natural_tick hb span
  checkDepth span := natural_checkDepth b span
  declare name v := .modify (respan_declare name v)
  assign name v := .modify (respan_assign name v)
  define name g := .modify (respan_define name g)
  inCall own h := h.inCall own

end Exec

/-- Moving a program and a machine moves the outcome. -/
theorem Machine.run_respan {b : Budget} (hb : b.Blind) (hf : f .origin = .origin) (n : Nat)
    (p : Program) (m : Machine) :
    run b n (Stmt.allRespan f p) (m.respan f) = movedBy f (run b n p m) := by
  rw [run_eq, run_eq, hb f m]
  cases b.cancelled m with
  | some reason =>
    -- A run that is cancelled before it begins is said to be so at the origin.
    change EStateM.Result.error (Halt.fault ⟨.cancelled reason, .origin⟩) (m.respan f) =
      .error (Halt.fault ⟨.cancelled reason, f .origin⟩) (m.respan f)
    rw [hf]
  | none =>
    have hblock := ((Exec.naturality f hb).agree (fun _ => rfl) n).block p
    have hbody : Exec.Natural f Eq (do discard (Exec.block b n p) : Exec Unit)
        (do discard (Exec.block b n (Stmt.allRespan f p)) : Exec Unit) :=
      .bind hblock fun _ _ _ => .pure rfl
    exact hbody.eq_movedBy m

end Scriptlet
