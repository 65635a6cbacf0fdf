import Scriptlet.Proofs.Machine.Bound
import Scriptlet.Proofs.Machine.Coupling
import Scriptlet.Proofs.Machine.Evaluation
import Scriptlet.Proofs.Machine.Globals
import Scriptlet.Proofs.Machine.Lifetime
import Scriptlet.Proofs.Machine.Narrowing

/-!
# Isolation: what a function sees and what its caller sees of it

Variables are looked up in two places only: among those of the function being run and among the
global ones. So an expression depends on its function's variables through the names written in it,
and what it calls does not depend on them at all, other than through the values handed over. After a
call the caller's variables are what they were, and no others can be seen.
-/

namespace Scriptlet

namespace Machine

/-- The machine with other variables of the function being run; none for the top level. -/
def withLocals (own : Option Scope) (m : Machine) : Machine := { m with locals := own }

theorem slot?_withLocals (own : Option Scope) (name : Bytes) (m : Machine) :
    (m.withLocals own).slot? name = (own.bind (Scope.find? name)).or (m.globals.find? name) := by
  unfold withLocals slot?
  cases own with
  | none => rfl
  | some own =>
    dsimp only [Option.bind_some]
    cases own.find? name with
    | none => rfl
    | some slot => rfl

/-- The types that a call of the name expects of its arguments. -/
def argHints (m : Machine) (name : Bytes) : List Ty :=
  match Builtin.ofName? name with
  | some _ => []
  | none =>
    match m.function? name with
    | some f => f.params.map Param.type
    | none => []

end Machine

open Machine

/-- Machines that differ at most in the variables of the function being run, which are the first
ones on the one and the second ones on the other. -/
def Coupling.levels (own own' : Option Scope) : Coupling where
  Rel m m' := m.locals = own ∧ m' = m.withLocals own'
  input := by rintro m _ ⟨-, rfl⟩; rfl
  output := by rintro m _ ⟨-, rfl⟩; rfl
  steps := by rintro m _ ⟨-, rfl⟩; rfl
  depth := by rintro m _ ⟨-, rfl⟩; rfl
  withInput := by rintro m _ ⟨hm, rfl⟩ input; exact ⟨hm, rfl⟩
  withOutput := by rintro m _ ⟨hm, rfl⟩ output; exact ⟨hm, rfl⟩
  withSteps := by rintro m _ ⟨hm, rfl⟩ steps; exact ⟨hm, rfl⟩

namespace Exec

variable {own own' : Option Scope} {α : Type}

theorem levels_withLocals (m : Machine) :
    (Coupling.levels own own').Rel (m.withLocals own) (m.withLocals own') := ⟨rfl, rfl⟩

/-- Actions that are coupled do the same, but for the variables that they do not look at. -/
theorem Coupled.eq_onState {x y : Exec α} (h : Coupled (.levels own own') Eq x y) (m : Machine) :
    y (m.withLocals own') = onState (withLocals own') (x (m.withLocals own)) := by
  have hm := h _ _ (levels_withLocals m)
  cases hr : x (m.withLocals own) with
  | ok a k =>
    rw [hr] at hm
    obtain ⟨c, k', hc, rfl, -, rfl⟩ := hm
    exact hc
  | error halt k =>
    rw [hr] at hm
    obtain ⟨k', hk', -, rfl⟩ := hm
    exact hk'

/-- The body of a call runs on the same machine, whatever the variables of its caller are. -/
theorem coupled_inCall (scope : Scope) (x : Exec α) :
    Coupled (.levels own own') Eq (inCall scope x) (inCall scope x) := by
  rintro m _ ⟨hm, rfl⟩
  have hbody : ({ m.withLocals own' with locals := some scope, depth := m.depth + 1 } : Machine) =
      { m with locals := some scope, depth := m.depth + 1 } := rfl
  rw [inCall_eq, inCall_eq, show (m.withLocals own').depth = m.depth from rfl, hbody]
  cases x { m with locals := some scope, depth := m.depth + 1 } with
  | ok a k => exact ⟨a, _, rfl, rfl, hm, rfl⟩
  | error halt k => exact ⟨_, rfl, hm, rfl⟩

theorem coupled_callee (wanted : Bool) (name : Bytes) (nameSpan span : Span) (argc : Nat) :
    Coupled (.levels own own') Eq (callee wanted name nameSpan span argc)
      (callee wanted name nameSpan span argc) := by
  have hlook : Coupled (.levels own own') (fun m m' => m'.functions = m.functions)
      (get : Exec Machine) get := by
    apply Coupled.get
    rintro m _ ⟨-, rfl⟩
    rfl
  refine hlook.bind fun m m' hm => ?_
  unfold function?
  rw [hm]
  cases m.functions.lookup name with
  | none => exact .throw _
  | some f =>
    dsimp only
    exact .branch (.throw _) (.branch (.throw _) (.pure rfl))

/-- What a call does once the function is found and its arguments are evaluated. -/
def invoke (b : Budget) (fuel : Nat) (wanted : Bool) (name : Bytes) (span : Span) (args : List Expr)
    (f : Function) (values : List Value) : Exec (Option Value) := do
  let own ← bindParams f.params args values []
  checkDepth b span
  match ← inCall own (block b fuel f.body) with
  | .ret v => returned wanted name span f.result v
  | _ => returned wanted name span f.result none

theorem coupled_invoke (b : Budget) (fuel : Nat) (wanted : Bool) (name : Bytes) (span : Span)
    (args : List Expr) (f : Function) (values : List Value) :
    Coupled (.levels own own') Eq (invoke b fuel wanted name span args f values)
      (invoke b fuel wanted name span args f values) := by
  unfold invoke
  refine (Coupled.bindParams f.params args values).seq fun scope => ?_
  refine (Coupled.checkDepth b span).seq fun _ => ?_
  refine (coupled_inCall scope _).seq fun flow => ?_
  exact .returned wanted name span f.result flow

/-- The same variables among those named are there in both, and hold the same values. -/
def SameOn (names : List Bytes) (own own' : Option Scope) : Prop :=
  ∀ name ∈ names, (own.bind (Scope.find? name)).map Slot.value =
    (own'.bind (Scope.find? name)).map Slot.value

theorem SameOn.mono {names names' : List Bytes} (h : SameOn names' own own')
    (hsub : names ⊆ names') : SameOn names own own' := fun name hname => h name (hsub hname)

theorem coupled_look {name : Bytes} (h : SameOn [name] own own') :
    Coupled (.levels own own')
      (fun m m' => (m'.slot? name).map Slot.value = (m.slot? name).map Slot.value)
      (get : Exec Machine) get := by
  apply Coupled.get
  rintro m _ ⟨rfl, rfl⟩
  have hm : m.slot? name = (m.locals.bind (Scope.find? name)).or (m.globals.find? name) :=
    slot?_withLocals m.locals name m
  rw [hm, slot?_withLocals, Option.map_or, Option.map_or, h name (List.mem_singleton_self name)]

/-- With a given amount of fuel, what is evaluated depends on its function's variables through the
names written in it only. -/
structure IsolatedAt (b : Budget) (own own' : Option Scope) (n : Nat) : Prop where
  eval : ∀ hint e, SameOn e.names own own' →
    Coupled (.levels own own') Eq (eval b n hint e) (eval b n hint e)
  items : ∀ t es, SameOn (Expr.allNames es) own own' →
    Coupled (.levels own own') Eq (evalItems b n t es) (evalItems b n t es)
  args : ∀ hints es, SameOn (Expr.allNames es) own own' →
    Coupled (.levels own own') Eq (evalArgs b n hints es) (evalArgs b n hints es)
  call : ∀ wanted name nameSpan args span, SameOn (Expr.allNames args) own own' →
    Coupled (.levels own own') Eq (call b n wanted name nameSpan args span)
      (call b n wanted name nameSpan args span)

section Step

variable {b : Budget} {n : Nat} (ih : IsolatedAt b own own' n)
include ih

theorem isolated_eval (hint : Option Ty) (e : Expr) (h : SameOn e.names own own') :
    Coupled (.levels own own') Eq (eval b (n + 1) hint e) (eval b (n + 1) hint e) := by
  cases e with
  | int | str | bool => rw [eval]; exact .pure rfl
  | ident name span =>
    rw [Expr.names] at h
    rw [eval]
    refine (coupled_look h).bind fun m m' hm => ?_
    -- Both find a variable or both find none, and the type recorded for it is not looked at.
    generalize m.slot? name = found, m'.slot? name = found' at hm
    cases found with
    | none =>
      obtain rfl : found' = none := Option.map_eq_none_iff.1 hm
      exact .throw _
    | some slot =>
      obtain ⟨slot', rfl, hvalue⟩ := Option.map_eq_some_iff.1 hm
      exact .pure hvalue.symm
  | vec elems span =>
    rw [Expr.names] at h
    rw [eval]
    refine (ih.items _ elems h).seq fun r => ?_
    obtain ⟨t, items⟩ := r
    cases t with
    | none => exact .throw _
    | some t => exact .pure rfl
  | neg operand span =>
    rw [Expr.names] at h
    rw [eval]
    refine (ih.eval none operand h).seq fun v => ?_
    cases v with
    | int k => exact .pure rfl
    | str _ | bool _ | vec _ _ => exact .throw _
  | binary op left right span =>
    rw [Expr.names] at h
    rw [eval]
    refine (ih.eval none left (h.mono (List.subset_append_left ..))).seq fun a => ?_
    refine (ih.eval (some a.type) right (h.mono (List.subset_append_right ..))).seq fun d => ?_
    exact .operate op left right a d
  | call name nameSpan args span =>
    rw [Expr.names] at h
    rw [eval]
    refine (ih.call true name nameSpan args span h).seq fun r => ?_
    cases r with
    | none => exact .throw _
    | some v => exact .pure rfl
  | index target place span =>
    rw [Expr.names] at h
    rw [eval]
    refine (ih.eval none target (h.mono (List.subset_append_left ..))).seq fun v => ?_
    cases v with
    | int _ | str _ | bool _ => exact .throw _
    | vec elem items =>
      refine (ih.eval none place (h.mono (List.subset_append_right ..))).seq fun i => ?_
      cases i with
      | int i => exact .itemAt place items i
      | str _ | bool _ | vec _ _ => exact .throw _

theorem isolated_evalItems (t : Option Ty) (es : List Expr)
    (h : SameOn (Expr.allNames es) own own') :
    Coupled (.levels own own') Eq (evalItems b (n + 1) t es) (evalItems b (n + 1) t es) := by
  cases es with
  | nil => rw [evalItems]; exact .pure rfl
  | cons e rest =>
    rw [Expr.allNames] at h
    rw [evalItems]
    refine (ih.eval t e (h.mono (List.subset_append_left ..))).seq fun v => ?_
    refine .branch (.throw _) ?_
    refine (ih.items _ rest (h.mono (List.subset_append_right ..))).seq fun r => ?_
    exact .pure rfl

theorem isolated_evalArgs (hints : List Ty) (es : List Expr)
    (h : SameOn (Expr.allNames es) own own') :
    Coupled (.levels own own') Eq (evalArgs b (n + 1) hints es) (evalArgs b (n + 1) hints es) := by
  cases es with
  | nil => rw [evalArgs]; exact .pure rfl
  | cons e rest =>
    rw [Expr.allNames] at h
    rw [evalArgs]
    refine (ih.eval _ e (h.mono (List.subset_append_left ..))).seq fun v => ?_
    refine (ih.args _ rest (h.mono (List.subset_append_right ..))).seq fun vs => ?_
    exact .pure rfl

theorem isolated_call (wanted : Bool) (name : Bytes) (nameSpan : Span) (args : List Expr)
    (span : Span) (h : SameOn (Expr.allNames args) own own') :
    Coupled (.levels own own') Eq (call b (n + 1) wanted name nameSpan args span)
      (call b (n + 1) wanted name nameSpan args span) := by
  rw [call]
  cases Builtin.ofName? name with
  | some f =>
    refine (ih.args [] args h).seq fun values => ?_
    exact .callBuiltin wanted f name span args values
  | none =>
    refine (coupled_callee wanted name nameSpan span args.length).seq fun f => ?_
    refine (ih.args _ args h).seq fun values => ?_
    -- The body needs no hypothesis of its own: the caller's variables are not there for it.
    exact coupled_invoke b n wanted name span args f values

end Step

theorem isolatedAt (b : Budget) (own own' : Option Scope) (n : Nat) : IsolatedAt b own own' n := by
  induction n with
  | zero =>
    constructor
    · intro hint e _; rw [eval_zero]; exact .throw _
    · intro t es _; rw [evalItems_zero]; exact .throw _
    · intro hints es _; rw [evalArgs_zero]; exact .throw _
    · intro wanted name nameSpan args span _; rw [call_zero]; exact .throw _
  | succ n ih =>
    exact ⟨isolated_eval ih, isolated_evalItems ih, isolated_evalArgs ih, isolated_call ih⟩

/-! ## What a call depends on -/

theorem bindParams_of_spans (params : List Param) {es es' : List Expr}
    (h : es'.map Expr.span = es.map Expr.span) (values : List Value) (own : Scope) :
    bindParams params es' values own = bindParams params es values own := by
  induction params generalizing es es' values own with
  | nil => rw [bindParams, bindParams]
  | cons p params ih =>
    cases es with
    | nil =>
      obtain rfl : es' = [] := List.map_eq_nil_iff.1 h
      rfl
    | cons e es =>
      obtain ⟨e', rest, rfl, hspan, hspans⟩ := List.map_eq_cons_iff.1 h
      cases values with
      | nil => rfl
      | cons v values => rw [bindParams, bindParams, ih hspans, hspan]

theorem callBuiltin_of_spans (wanted : Bool) (f : Builtin) (name : Bytes) (span : Span)
    {es es' : List Expr} (h : es'.map Expr.span = es.map Expr.span) (values : List Value) :
    callBuiltin wanted f name span es' values = callBuiltin wanted f name span es values := by
  unfold callBuiltin
  rw [← List.head?_map, h, List.head?_map]

theorem invoke_of_spans (b : Budget) (n : Nat) (wanted : Bool) (name : Bytes) (span : Span)
    {es es' : List Expr} (h : es'.map Expr.span = es.map Expr.span) (f : Function)
    (values : List Value) :
    invoke b n wanted name span es' f values = invoke b n wanted name span es f values := by
  unfold invoke
  rw [bindParams_of_spans f.params h]

/-- A call does the same for the same values of its arguments, whatever the arguments are and
whoever calls. -/
theorem call_of_values {b : Budget} {n : Nat} {name : Bytes} {es es' : List Expr} {m k : Machine}
    {values : List Value} (h : es'.map Expr.span = es.map Expr.span)
    (hes : evalArgs b n (m.argHints name) es (m.withLocals own) = .ok values (k.withLocals own))
    (hes' : evalArgs b n (m.argHints name) es' (m.withLocals own') =
      .ok values (k.withLocals own'))
    (wanted : Bool) (nameSpan span : Span) :
    call b (n + 1) wanted name nameSpan es' span (m.withLocals own') =
      onState (withLocals own')
        (call b (n + 1) wanted name nameSpan es span (m.withLocals own)) := by
  have hlength : es'.length = es.length := by
    have hmap := congrArg List.length h
    rwa [List.length_map, List.length_map] at hmap
  rw [call, call, hlength]
  cases hb : Builtin.ofName? name with
  | some f =>
    simp only [argHints, hb] at hes hes'
    dsimp only
    rw [bind_eq_of_ok hes, bind_eq_of_ok hes', callBuiltin_of_spans wanted f name span h]
    exact (Coupled.callBuiltin wanted f name span es values).eq_onState k
  | none =>
    dsimp only
    have hlook : Coupled (.levels own own') Eq (callee wanted name nameSpan span es.length)
        (callee wanted name nameSpan span es.length) :=
      coupled_callee wanted name nameSpan span es.length
    have hcallee := hlook.eq_onState m
    cases hf : callee wanted name nameSpan span es.length (m.withLocals own) with
    | error halt l =>
      rw [hf] at hcallee
      rw [bind_eq_of_error hf, bind_eq_of_error hcallee]
      rfl
    | ok f l =>
      obtain rfl := callee_state hf
      have hfunction : m.function? name = some f :=
        (ends_callee wanted name nameSpan span es.length (m.withLocals own)).of_ok hf
      rw [hf] at hcallee
      simp only [argHints, hb, hfunction] at hes hes'
      rw [bind_eq_of_ok hf, bind_eq_of_ok hcallee, bind_eq_of_ok hes]
      change (evalArgs b n (f.params.map Param.type) es' >>=
        invoke b n wanted name span es' f) (m.withLocals own') =
          onState _ (invoke b n wanted name span es f values (k.withLocals own))
      rw [bind_eq_of_ok hes', invoke_of_spans b n wanted name span h]
      exact (coupled_invoke b n wanted name span es f values).eq_onState k

end Exec

open Exec in
/-- Function scopes are isolated. However an evaluation ends, the variables of the function are as
they were, and they matter through the names written in the expression only. A call depends on the
values of its arguments and on what all functions share; and no variable of its own can be seen
after it: the names mean what they meant before, but for the global variables assigned to. -/
theorem function_scopes_are_isolated (b : Budget) :
    (∀ n hint e m, (stateOf (eval b n hint e m)).locals = m.locals) ∧
    (∀ (e : Expr) (own own' : Scope),
      (∀ name ∈ e.names, (own.find? name).map Slot.value = (own'.find? name).map Slot.value) →
      ∀ n hint (m : Machine), eval b n hint e (m.withLocals (some own')) =
        onState (withLocals (some own')) (eval b n hint e (m.withLocals (some own)))) ∧
    (∀ n name (es es' : List Expr) (own own' : Option Scope) (m k : Machine) values,
      es'.map Expr.span = es.map Expr.span →
      evalArgs b n (m.argHints name) es (m.withLocals own) = .ok values (k.withLocals own) →
      evalArgs b n (m.argHints name) es' (m.withLocals own') = .ok values (k.withLocals own') →
      ∀ wanted nameSpan span, call b (n + 1) wanted name nameSpan es' span (m.withLocals own') =
        onState (withLocals own')
          (call b (n + 1) wanted name nameSpan es span (m.withLocals own))) ∧
    ∀ n wanted name nameSpan es span m,
      (stateOf (call b n wanted name nameSpan es span m)).locals = m.locals ∧
      ∀ x, ((stateOf (call b n wanted name nameSpan es span m)).slot? x).map Slot.type =
          (m.slot? x).map Slot.type ∧
        (Task.Always b (Task.Spares x) n (.call wanted name nameSpan es span) m →
          (stateOf (call b n wanted name nameSpan es span m)).slot? x = m.slot? x) := by
  refine ⟨fun n hint e m => ?_, fun e own own' h n hint m => ?_,
    fun n name es es' own own' m k values h hes hes' => call_of_values h hes hes',
    fun n wanted name nameSpan es span m => ?_⟩
  · exact (Leaves.stateOf ((frameAt b n).eval hint e) m).locals
  · exact ((isolatedAt b (some own) (some own') n).eval hint e h).eq_onState m
  · have hkeeps := Leaves.stateOf ((frameAt b n).call wanted name nameSpan es span) m
    exact ⟨hkeeps.locals, fun x => ⟨hkeeps.typeOf_slot? x, slot?_of_call⟩⟩

/-- A function with a parameter `x` declares `y` and assigns it to `total`. It is called where `x`
is 5, whatever `y` is there, and from the top level, where `y` is a global variable and stays 7. -/
theorem names_of_the_caller_do_not_clash :
    let x : Expr := .ident (utf8 "x") .origin
    let y : Expr := .ident (utf8 "y") .origin
    let body : List Stmt := [
      .letVar (utf8 "y") .origin none x .origin,
      .assign (utf8 "total") y .origin,
      .ret (some y) .origin]
    let m : Machine := {
      globals := [(utf8 "total", ⟨.int, .int 0⟩), (utf8 "y", ⟨.int, .int 7⟩)],
      functions := [(utf8 "f", ⟨[⟨utf8 "x", .int, .origin⟩], some .int, body⟩)] }
    let own : Scope := [(utf8 "x", ⟨.int, .int 5⟩), (utf8 "y", ⟨.str, .str (utf8 "mine")⟩)]
    let own' : Scope := [(utf8 "y", ⟨.bool, .bool true⟩), (utf8 "x", ⟨.int, .int 5⟩)]
    let next : Expr := .binary .add x (.int 1 .origin) .origin
    let e : Expr := .call (utf8 "f") .origin [next] .origin
    let six : Expr := .int 6 .origin
    (∀ name ∈ e.names, (own.find? name).map Slot.value = (own'.find? name).map Slot.value) ∧
      Task.Always {} (Task.Spares (utf8 "y")) 9 (.call true (utf8 "f") .origin [six] .origin) m ∧
      ∃ k : Machine, k.globals.find? (utf8 "total") = some ⟨.int, .int 6⟩ ∧
        k.locals = some own ∧ (k.slot? (utf8 "y")).map Slot.type = some .str ∧
        Exec.eval {} 10 none e (m.withLocals (some own)) = .ok (.int 6) k ∧
        Exec.eval {} 10 none e (m.withLocals (some own')) =
          .ok (.int 6) (k.withLocals (some own')) ∧
        Exec.call {} 9 true (utf8 "f") .origin [six] .origin m =
          .ok (some (.int 6)) (k.withLocals none) ∧
        (k.withLocals none).slot? (utf8 "y") = some ⟨.int, .int 7⟩ := by
  intro x y body m own own' next e six
  obtain ⟨hlocals, hnames, hvalues, hcalls⟩ := function_scopes_are_isolated {}
  have hagree : ∀ name ∈ e.names,
      (own.find? name).map Slot.value = (own'.find? name).map Slot.value := by
    intro name hname
    rw [show e.names = [utf8 "x"] from rfl, List.mem_singleton] at hname
    rw [hname]
    rfl
  -- None of the statements that are run is an assignment to `y`, and there are no further calls.
  have hbody (k) : Task.Always {} (Task.Spares (utf8 "y")) 8 (.block body) k := by
    refine .block_cons trivial ?_ fun k _ => .block_cons trivial ?_ fun k _ =>
      .block_cons trivial ?_ fun k _ => .block_nil trivial
    · refine .intro nofun (fun _ _ hp => ?_) (fun _ _ ho => by cases ho)
      cases hp with
      | letValue => exact .ident trivial
    · refine .intro (fun h => absurd h (by decide)) (fun _ _ hp => ?_) (fun _ _ ho => by cases ho)
      cases hp with
      | assignValue => exact .ident trivial
    · refine .intro nofun (fun _ _ hp => ?_) (fun _ _ ho => by cases ho)
      cases hp with
      | retValue => exact .ident trivial
  have hspares : Task.Always {} (Task.Spares (utf8 "y")) 9
      (.call true (utf8 "f") .origin [six] .origin) m := by
    refine .intro trivial (fun _ _ hp => ?_) fun _ _ ho => ?_
    · cases hp with
      | builtinArgs hb => cases hb
      | functionArgs hb hf =>
        refine .intro trivial (fun _ _ hp => ?_) (fun _ _ ho => by cases ho)
        cases hp with
        | firstArg => exact .int trivial
        | otherArgs => exact .intro trivial (fun _ _ hp => by cases hp) (fun _ _ ho => by cases ho)
    · cases ho with
      | call hb hf =>
        cases hf
        exact hbody _
  have hcall : Exec.call {} 9 true (utf8 "f") .origin [next] .origin (m.withLocals (some own)) =
      .ok (some (.int 6)) (stateOf (Exec.eval {} 10 none e (m.withLocals (some own)))) := by
    unfold e next m own body y x
    rfl
  have heval : Exec.eval {} 10 none e (m.withLocals (some own)) =
      .ok (.int 6) (stateOf (Exec.eval {} 10 none e (m.withLocals (some own)))) := bind_eq_of_ok hcall
  have htotal : (stateOf (Exec.eval {} 10 none e (m.withLocals (some own)))).globals.find?
      (utf8 "total") = some ⟨.int, .int 6⟩ := by
    unfold e next m own body y x
    rfl
  have hown := hlocals 10 none e (m.withLocals (some own))
  have htype := ((hcalls 9 true (utf8 "f") .origin [next] .origin (m.withLocals (some own))).2
    (utf8 "y")).1
  have hsame := hnames e own own' hagree 10 none m
  have htop := hvalues 8 (utf8 "f") [next] [six] (some own) none m m [.int 6] rfl rfl rfl
    true .origin .origin
  have hback := ((hcalls 9 true (utf8 "f") .origin [six] .origin m).2 (utf8 "y")).2 hspares
  rw [hcall] at htype htop
  rw [heval] at hsame
  change Exec.call {} 9 true (utf8 "f") .origin [six] .origin m = _ at htop
  rw [htop] at hback
  exact ⟨hagree, hspares, _, htotal, hown, htype, heval, hsame, htop, hback⟩

end Scriptlet
