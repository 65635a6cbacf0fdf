import Scriptlet.Proofs.Machine.Moment

/-!
# Lifetime: programs one after the other on one machine

A machine is new, or an earlier program was run on it, to whatever end. Such a machine is sound, so
all that soundness gives holds for every program of a session: no run gets stuck, and what the
machine records about types is true between any two statements.
-/

namespace Scriptlet

/-- Machines as parsed programs leave them, however their runs end. Between two programs the streams
may be exchanged. -/
inductive Machine.Reached : Machine → Prop
  | new (input : Input) (output : Sink) : Reached { input, output }
  | streams {m : Machine} (h : Reached m) (input : Input) (output : Sink) :
    Reached { m with input, output }
  | ended {m n : Machine} {source : Bytes} {p : Program} {budget : Budget} {fuel : Nat}
    (h : Reached m) (hp : Program.ofSource source = .ok p)
    (hr : Machine.run budget fuel p m = .ok () n) : Reached n
  | halted {m n : Machine} {source : Bytes} {p : Program} {budget : Budget} {fuel : Nat}
    {halt : Halt} (h : Reached m) (hp : Program.ofSource source = .ok p)
    (hr : Machine.run budget fuel p m = .error halt n) : Reached n

open Exec in
/-- Running a program whose statements stand where they may is safe. -/
theorem Machine.safe_run (budget : Budget) (fuel : Nat) {p : Program}
    (hp : Stmt.AllPlaced .top p) : Safe (fun _ => True) (Machine.run budget fuel p) := by
  refine Safe.bind Safe.get fun m _ => ?_
  split
  · exact Safe.fail Code.noConfusion _
  · exact Safe.bind ((soundAt budget fuel).block _ p hp) fun _ _ => Safe.pure trivial

theorem Machine.Reached.sound {m : Machine} (h : m.Reached) : m.Sound := by
  induction h with
  | new input output =>
    exact ⟨Scope.typed_nil, fun own hown => (by cases hown), fun b hb => by cases hb⟩
  | streams h input output ih => exact ih.congr rfl rfl rfl
  | ended h hp hr ih =>
    exact ((safe_run _ _ (Program.allPlaced_of_ofSource hp) _ ih).of_ok hr).2
  | halted h hp hr ih =>
    exact ((safe_run _ _ (Program.allPlaced_of_ofSource hp) _ ih).of_error hr).2

/-! ## What a run does to the types -/

/-- The names a task may declare anew, at the level it is done. -/
def Task.lets : Task → List Bytes
  | .stmt s => s.lets
  | .block ss => Stmt.allLets ss
  | .rounds body _ => Stmt.allLets body
  | .eval .. | .items .. | .args .. | .call .. => []

open Exec in
/-- A task changes recorded types only through the declarations written in it. -/
theorem Task.declaresOnly_run (budget : Budget) (fuel : Nat) (t : Task) :
    DeclaresOnly t.lets (t.run budget fuel) := by
  have ih := frameAt budget fuel
  have hexpr {α β : Type} {x : Exec α} (hx : KeepsTypes x) (f : α → β) :
      DeclaresOnly [] (do return f (← x)) :=
    (KeepsTypes.bind hx fun _ => KeepsTypes.pure _).declaresOnly []
  have hflow {names : List Bytes} {x : Exec Flow} (hx : DeclaresOnly names x) :
      DeclaresOnly names (do return (← x).value?.toList) :=
    DeclaresOnly.bind hx fun _ => (KeepsTypes.pure _).declaresOnly names
  cases t with
  | eval hint e => exact hexpr (ih.eval hint e) fun v => [v]
  | items hint es => exact hexpr (ih.items hint es) Prod.snd
  | args hints es => exact (ih.args hints es).declaresOnly []
  | call wanted name nameSpan args span =>
    exact hexpr (ih.call wanted name nameSpan args span) Option.toList
  | stmt s => exact hflow (ih.stmt s s.lets (List.Subset.refl _))
  | block ss => exact hflow (ih.block ss _ (List.Subset.refl _))
  | rounds body span => exact hflow (ih.rounds body span _ (List.Subset.refl _))

namespace Exec

theorem ends_callee (wanted : Bool) (name : Bytes) (nameSpan span : Span) (argc : Nat)
    (m : Machine) :
    Ends (callee wanted name nameSpan span argc m) (fun f _ => m.function? name = some f)
      (fun _ _ => True) := by
  unfold callee
  rw [Ends.bind_iff, Ends.get_iff]
  cases hf : m.function? name with
  | none => trivial
  | some f =>
    dsimp only
    split
    · trivial
    · split
      · trivial
      · exact rfl

theorem ends_returned (name : Bytes) (span : Span) (result : Option Ty) (v : Option Value)
    (m : Machine) :
    Ends (returned true name span result v m)
      (fun r _ => ∃ u, r = some u ∧ result = some u.type) (fun _ _ => True) := by
  cases v with
  | none => trivial
  | some u =>
    cases result with
    | none => trivial
    | some t =>
      simp only [returned]
      split
      · rename_i htype
        exact ⟨u, rfl, by rw [htype]⟩
      · trivial

/-- A call of a declared function whose value is wanted gives a value of the declared type. -/
theorem ends_call (budget : Budget) (fuel : Nat) {name : Bytes} (hb : Builtin.ofName? name = none)
    (nameSpan : Span) (args : List Expr) (span : Span) (m : Machine) :
    Ends (call budget fuel true name nameSpan args span m)
      (fun r _ => ∃ f v, m.function? name = some f ∧ r = some v ∧ f.result = some v.type)
      (fun _ _ => True) := by
  cases fuel with
  | zero =>
    rw [call]
    trivial
  | succ fuel =>
    rw [call, hb]
    dsimp only
    rw [Ends.bind_iff]
    refine (ends_callee true name nameSpan span args.length m).mono (fun f k hf => ?_)
      (fun _ _ _ => trivial)
    -- The arguments, the depth and the body may stop the call, and have no say in its result type.
    refine Ends.after fun values k => Ends.after fun own k => Ends.after fun _ k =>
      Ends.after fun flow k => ?_
    have hreturned (v : Option Value) :
        Ends (returned true name span f.result v k)
          (fun r _ => ∃ f v, m.function? name = some f ∧ r = some v ∧ f.result = some v.type)
          (fun _ _ => True) :=
      (ends_returned name span f.result v k).mono
        (fun r _ h => h.elim fun u hu => ⟨f, u, hf, hu.1, hu.2⟩) (fun _ _ h => h)
    cases flow with
    | next | leave => exact hreturned none
    | ret v => exact hreturned v

end Exec

/-- What the machine records about types is true at the moment and after its task, and changes by
declarations only. -/
structure Moment.TypesHold (budget : Budget) (mo : Moment) : Prop where
  machine : mo.machine.Sound
  callers : ∀ own, some own ∈ mo.callers → own.Typed
  /-- Whether the task gives values or is stopped, the machine is sound again. -/
  outcome : Ends (mo.outcome budget) (fun vs n => (∀ v ∈ vs, v.Typed) ∧ n.Sound) (fun _ n => n.Sound)
  /-- The task declares at most what is written in it, at its own level. -/
  declares : Ends (mo.outcome budget) (fun _ n => mo.machine.TypesBut mo.task.lets n)
    (fun _ n => mo.machine.TypesBut mo.task.lets n)
  /-- A call used as an expression gives a value of the declared type. -/
  calls : ∀ name nameSpan args span, mo.task = .call true name nameSpan args span →
    Builtin.ofName? name = none →
    Ends (mo.outcome budget)
      (fun vs _ => ∃ f v, mo.machine.function? name = some f ∧ vs = [v] ∧ f.result = some v.type)
      (fun _ _ => True)

theorem Moment.Sound.typesHold {mo : Moment} (h : mo.Sound) (budget : Budget) :
    mo.TypesHold budget where
  machine := h.machine
  callers := h.callers
  outcome := h.outcome.mono (fun _ _ h => h) (fun _ _ h => h.2)
  declares := Task.declaresOnly_run budget mo.fuel mo.task mo.machine
  calls name nameSpan args span htask hb := by
    unfold Moment.outcome
    rw [htask, Task.run, Ends.bind_iff]
    refine (Exec.ends_call budget mo.fuel hb nameSpan args span mo.machine).mono ?_
      (fun _ _ h => h)
    rintro r k ⟨f, v, hf, rfl, hv⟩
    exact ⟨f, v, hf, rfl, hv⟩

/-- Over every session of parsed programs, and at every moment of each of its runs, variables hold
typed values of their recorded types, recorded types change by declarations only, calls give values
of the declared types, and no function bears a builtin's name. -/
theorem types_hold_over_sessions {m : Machine} (hm : m.Reached) :
    m.Sound ∧ ∀ source p, Program.ofSource source = .ok p → ∀ budget fuel mo,
      Moment.LeadsTo budget (.start fuel p m) mo → mo.TypesHold budget := by
  refine ⟨hm.sound, fun source p hp budget fuel mo hmo => ?_⟩
  have hstart : (Moment.start fuel p m).Sound :=
    ⟨hm.sound, ⟨_, Program.allPlaced_of_ofSource hp⟩, fun own hown => by cases hown⟩
  exact (hstart.leadsTo hmo).typesHold budget

/-- A program that is stopped leaves a machine like any other for the next one. -/
theorem types_hold_after_an_error :
    ∃ p halt n, Program.ofSource (utf8 "let v = [1]; v[0] = v;") = .ok p ∧
      Machine.run {} 100 p {} = .error halt n ∧ n.Reached ∧
      n.Sound ∧ ∀ source p, Program.ofSource source = .ok p → ∀ budget fuel mo,
        Moment.LeadsTo budget (.start fuel p n) mo → mo.TypesHold budget := by
  have hstop : ((Program.ofSource (utf8 "let v = [1]; v[0] = v;")).toOption.map
      fun p => stops (Machine.run {} 100 p {})) = some true := by decide +kernel
  cases hp : Program.ofSource (utf8 "let v = [1]; v[0] = v;") with
  | error d => rw [hp] at hstop; cases hstop
  | ok p =>
    rw [hp] at hstop
    obtain ⟨halt, n, hr⟩ := exists_of_stops (Option.some.inj hstop)
    have hn : n.Reached := .halted (.new {} (.empty none)) hp hr
    exact ⟨p, halt, n, rfl, hr, hn, types_hold_over_sessions hn⟩

/-! ## How a run ends -/

/-- The keys of the errors of running programs. -/
def Code.runningKeys : List Bytes :=
  [utf8 "E0002", utf8 "E0003", utf8 "E0004", utf8 "E0005", utf8 "E0006", utf8 "E0007",
    utf8 "E0008", utf8 "E0009", utf8 "E0011"]

theorem Code.key_mem_runningKeys_iff (c : Code) : c.key ∈ runningKeys ↔ c ≠ .malformed := by
  cases c with
  | malformed => decide
  | mismatchedTypes | invalidConversion | function | undeclared => decide
  | index | arithmetic | limit | io | incorrectType => decide

/-- An exit, an error of a running program, or no end within the fuel. -/
def Halt.Proper : Halt → Prop
  | .fault d => d.code.key ∈ Code.runningKeys
  | .exit _ | .outOfFuel => True
  | .stuck => False

theorem Halt.Orderly.proper {halt : Halt} (h : halt.Orderly) : halt.Proper := by
  cases halt with
  | fault d => exact (Code.key_mem_runningKeys_iff d.code).2 h
  | exit code | outOfFuel => trivial
  | stuck => exact h

/-- How a program runs on a machine that never gets stuck. -/
structure Program.RunsOn (p : Program) (budget : Budget) (fuel : Nat) (m : Machine) : Prop where
  /-- The run completes, or halts properly. -/
  ending : Ends (Machine.run budget fuel p m) (fun _ _ => True) (fun halt _ => halt.Proper)
  /-- Neither a `break` nor a `return` reaches the top level. -/
  top : ∀ flow n, Exec.block budget fuel p m = .ok flow n → flow = .next
  /-- No `break` leaves the body of a function, and a `return` leaves it with a value exactly if the
  function declares a result. -/
  bodies : ∀ n task k callers, Moment.LeadsTo budget (.start fuel p m) ⟨n + 1, task, k, callers⟩ →
    ∀ f l, Task.Opens budget n task k f l → ∀ flow o, Exec.block budget n f.body l = .ok flow o →
      flow ≠ .leave ∧ ∀ v, flow = .ret v → v.isSome = f.result.isSome
  /-- No task on the way gets stuck, and a call whose value is used gives one. -/
  tasks : ∀ mo, Moment.LeadsTo budget (.start fuel p m) mo →
    Ends (mo.outcome budget)
      (fun vs _ => ∀ name nameSpan args span, mo.task = .call true name nameSpan args span →
        ∃ v, vs = [v])
      (fun halt _ => halt.Proper)

open Exec in
/-- A call on a sound machine gives a value if one is wanted. -/
theorem Moment.Sound.ends_call {mo : Moment} (h : mo.Sound) (budget : Budget) :
    Ends (mo.outcome budget)
      (fun vs _ => ∀ name nameSpan args span, mo.task = .call true name nameSpan args span →
        ∃ v, vs = [v]) (fun _ _ => True) := by
  obtain ⟨fuel, task, m, callers⟩ := mo
  cases task with
  | call wanted name nameSpan args span =>
    unfold Moment.outcome
    rw [Task.run, Ends.bind_iff]
    refine ((soundAt budget fuel).call wanted name nameSpan args span m h.machine).mono
      (fun r k hr => ?_) (fun _ _ _ => trivial)
    intro name' nameSpan' args' span' htask
    cases htask
    obtain ⟨v, hv⟩ := Option.isSome_iff_exists.1 (hr.1.1 rfl)
    exact ⟨v, by rw [hv]; rfl⟩
  | eval | items | args | stmt | block | rounds =>
    exact Ends.of_forall_ok fun vs k _ name nameSpan args span htask => by cases htask

open Exec in
/-- A parsed program runs on any machine that parsed programs left behind. -/
theorem Program.runsOn {source : Bytes} {p : Program} (hp : Program.ofSource source = .ok p)
    {m : Machine} (hm : m.Reached) (budget : Budget) (fuel : Nat) : p.RunsOn budget fuel m := by
  have hplaced := Program.allPlaced_of_ofSource hp
  have hstart : (Moment.start fuel p m).Sound :=
    ⟨hm.sound, ⟨_, hplaced⟩, fun own hown => by cases hown⟩
  constructor
  · exact (Machine.safe_run budget fuel hplaced m hm.sound).mono (fun _ _ _ => trivial)
      (fun _ _ h => h.1.proper)
  · intro flow n hflow
    have hfits := ((soundAt budget fuel).block .top p hplaced m hm.sound).of_ok hflow
    cases flow with
    | next => rfl
    | leave => cases hfits.1
    | ret v =>
      -- A `return` fits only inside a function, and there is none at the top.
      obtain ⟨⟨result, hfunction, -⟩, -⟩ := hfits.1
      cases hfunction
  · intro n task k callers hlead f l hopens flow o hflow
    obtain ⟨hf, hl⟩ := hopens.sound (hstart.leadsTo hlead).machine
    have hfits := ((soundAt budget n).block _ f.body hf.body l hl).of_ok hflow
    cases flow with
    | next => exact ⟨Flow.noConfusion, fun v h => by cases h⟩
    | leave => cases hfits.1
    | ret v =>
      obtain ⟨⟨result, hfunction, hsome⟩, -⟩ := hfits.1
      cases hfunction
      exact ⟨Flow.noConfusion, fun u hu => by cases hu; exact hsome⟩
  · intro mo hmo
    have hsound := hstart.leadsTo hmo
    exact ((hsound.ends_call budget).and hsound.outcome).mono (fun _ _ h => h.1)
      (fun _ _ h => h.2.1.proper)

end Scriptlet
