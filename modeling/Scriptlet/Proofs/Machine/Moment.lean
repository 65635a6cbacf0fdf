import Mathlib.Logic.Relation
import Scriptlet.Proofs.Machine.Soundness

/-!
# Moment: the states inside a run

A run is a tree of tasks: a block runs its statements, a statement evaluates its expressions, a
call runs the body of its function. A moment is a machine about to do one of these tasks, together
with the variables of the callers, which the machine itself does not show. The moments of a run are
those that its first moment leads to; every statement boundary of the run is among them. Soundness
holds at each of them and at the end of each task.
-/

namespace Scriptlet

/-- A task of a running machine. -/
inductive Task where
  | eval (hint : Option Ty) (e : Expr)
  | items (hint : Option Ty) (es : List Expr)
  | args (hints : List Ty) (es : List Expr)
  | call (wanted : Bool) (name : Bytes) (nameSpan : Span) (args : List Expr) (span : Span)
  | stmt (s : Stmt)
  | block (ss : List Stmt)
  | rounds (body : List Stmt) (span : Span)

/-- The value a flow carries, if it carries one. -/
def Flow.value? : Flow → Option Value
  | .ret v => v
  | .next | .leave => none

namespace Task

/-- Does the task; the result are the values it hands back. -/
def run (budget : Budget) (fuel : Nat) : Task → Exec (List Value)
  | .eval hint e => do return [← Exec.eval budget fuel hint e]
  | .items hint es => do return (← Exec.evalItems budget fuel hint es).2
  | .args hints es => Exec.evalArgs budget fuel hints es
  | .call wanted name nameSpan exprs span => do
    return (← Exec.call budget fuel wanted name nameSpan exprs span).toList
  | .stmt s => do return (← Exec.stmt budget fuel s).value?.toList
  | .block ss => do return (← Exec.block budget fuel ss).value?.toList
  | .rounds body span => do return (← Exec.rounds budget fuel body span).value?.toList

/-- `Part budget n t m t' m'`: on its way, the task `t` begun on `m` comes to the task `t'` on `m'`,
for which it has fuel `n`. What comes before a part is done by then, and has not stopped the task. -/
inductive Part (budget : Budget) (n : Nat) : Task → Machine → Task → Machine → Prop
  -- Expressions.
  | vecItems {hint elems span m} :
    Part budget n (.eval hint (.vec elems span)) m (.items (itemHint hint) elems) m
  | negOperand {hint e span m} : Part budget n (.eval hint (.neg e span)) m (.eval none e) m
  | leftOperand {hint op l r span m} :
    Part budget n (.eval hint (.binary op l r span)) m (.eval none l) m
  | rightOperand {hint op l r span m a k} (hl : Exec.eval budget n none l m = .ok a k) :
    Part budget n (.eval hint (.binary op l r span)) m (.eval (some a.type) r) k
  | callExpr {hint name nameSpan args span m} :
    Part budget n (.eval hint (.call name nameSpan args span)) m
      (.call true name nameSpan args span) m
  | indexTarget {hint target place span m} :
    Part budget n (.eval hint (.index target place span)) m (.eval none target) m
  | indexPlace {hint target place span m elem items k}
    (ht : Exec.eval budget n none target m = .ok (.vec elem items) k) :
    Part budget n (.eval hint (.index target place span)) m (.eval none place) k
  | firstItem {hint e rest m} : Part budget n (.items hint (e :: rest)) m (.eval hint e) m
  | otherItems {hint e rest m v k} (he : Exec.eval budget n hint e m = .ok v k)
    (ht : v.type = hint.getD v.type) :
    Part budget n (.items hint (e :: rest)) m (.items (some (hint.getD v.type)) rest) k
  | firstArg {hints e rest m} : Part budget n (.args hints (e :: rest)) m (.eval hints.head? e) m
  | otherArgs {hints e rest m v k} (he : Exec.eval budget n hints.head? e m = .ok v k) :
    Part budget n (.args hints (e :: rest)) m (.args hints.tail rest) k
  -- Calls; the body of a function is run apart from its caller's variables.
  | builtinArgs {wanted name nameSpan args span m f} (hb : Builtin.ofName? name = some f) :
    Part budget n (.call wanted name nameSpan args span) m (.args [] args) m
  | functionArgs {wanted name nameSpan args span m f} (hb : Builtin.ofName? name = none)
    (hf : Exec.callee wanted name nameSpan span args.length m = .ok f m) :
    Part budget n (.call wanted name nameSpan args span) m (.args (f.params.map Param.type) args) m
  -- Statements, after the step they count.
  | letValue {name nameSpan type value span m k} (hk : Exec.tick budget span m = .ok () k) :
    Part budget n (.stmt (.letVar name nameSpan type value span)) m (.eval type value) k
  | assignValue {name value span m k slot} (hk : Exec.tick budget span m = .ok () k)
    (hs : k.slot? name = some slot) :
    Part budget n (.stmt (.assign name value span)) m (.eval (some slot.type) value) k
  | assignPlace {name place value span m k type elem items}
    (hk : Exec.tick budget span m = .ok () k) (hs : k.slot? name = some ⟨type, .vec elem items⟩) :
    Part budget n (.stmt (.assignAt name place value span)) m (.eval none place) k
  | assignItem {name place value span m k type elem items i l}
    (hk : Exec.tick budget span m = .ok () k) (hs : k.slot? name = some ⟨type, .vec elem items⟩)
    (hp : Exec.eval budget n none place k = .ok (.int i) l) :
    Part budget n (.stmt (.assignAt name place value span)) m (.eval (some elem) value) l
  | callStmt {name nameSpan args callSpan span m k} (hk : Exec.tick budget span m = .ok () k) :
    Part budget n (.stmt (.call name nameSpan args callSpan span)) m
      (.call false name nameSpan args callSpan) k
  | whenCond {cond body bodySpan span m k} (hk : Exec.tick budget span m = .ok () k) :
    Part budget n (.stmt (.when cond body bodySpan span)) m (.eval none cond) k
  | whenBody {cond body bodySpan span m k l} (hk : Exec.tick budget span m = .ok () k)
    (hc : Exec.eval budget n none cond k = .ok (.bool true) l) :
    Part budget n (.stmt (.when cond body bodySpan span)) m (.block body) l
  | ifCond {cond body bodySpan other otherSpan span m k}
    (hk : Exec.tick budget span m = .ok () k) :
    Part budget n (.stmt (.ifElse cond body bodySpan other otherSpan span)) m (.eval none cond) k
  | ifBody {cond body bodySpan other otherSpan span m k l}
    (hk : Exec.tick budget span m = .ok () k)
    (hc : Exec.eval budget n none cond k = .ok (.bool true) l) :
    Part budget n (.stmt (.ifElse cond body bodySpan other otherSpan span)) m (.block body) l
  | ifOther {cond body bodySpan other otherSpan span m k l}
    (hk : Exec.tick budget span m = .ok () k)
    (hc : Exec.eval budget n none cond k = .ok (.bool false) l) :
    Part budget n (.stmt (.ifElse cond body bodySpan other otherSpan span)) m (.block other) l
  | loopRounds {body bodySpan span m k} (hk : Exec.tick budget span m = .ok () k) :
    Part budget n (.stmt (.loop body bodySpan span)) m (.rounds body span) k
  | retValue {value span m k} (hk : Exec.tick budget span m = .ok () k) :
    Part budget n (.stmt (.ret (some value) span)) m (.eval none value) k
  | exitValue {value span m k} (hk : Exec.tick budget span m = .ok () k) :
    Part budget n (.stmt (.exit value span)) m (.eval none value) k
  -- Blocks and loops.
  | firstStmt {s rest m} : Part budget n (.block (s :: rest)) m (.stmt s) m
  | otherStmts {s rest m k} (hs : Exec.stmt budget n s m = .ok .next k) :
    Part budget n (.block (s :: rest)) m (.block rest) k
  | roundBody {body span m} : Part budget n (.rounds body span) m (.block body) m
  | nextRound {body span m k l} (hb : Exec.block budget n body m = .ok .next k)
    (hl : Exec.tick budget span k = .ok () l) :
    Part budget n (.rounds body span) m (.rounds body span) l

/-- `Opens budget n t m f k`: the task `t`, a call begun on `m`, comes to the body of the function
`f`, which it runs on `k` with fuel `n`. -/
inductive Opens (budget : Budget) (n : Nat) : Task → Machine → Function → Machine → Prop
  | call {wanted name nameSpan args span m f values k own} (hb : Builtin.ofName? name = none)
    (hf : Exec.callee wanted name nameSpan span args.length m = .ok f m)
    (ha : Exec.evalArgs budget n (f.params.map Param.type) args m = .ok values k)
    (ho : Exec.bindParams f.params args values [] k = .ok own k)
    (hd : Exec.checkDepth budget span k = .ok () k) :
    Opens budget n (.call wanted name nameSpan args span) m f
      { k with locals := some own, depth := k.depth + 1 }

end Task

/-- A machine about to do a task. -/
structure Moment where
  fuel : Nat
  task : Task
  machine : Machine
  /-- The variables of the callers, the nearest first; none stands for the top level. -/
  callers : List (Option Scope) := []

namespace Moment

/-- The start of a program on a machine. -/
def start (fuel : Nat) (p : Program) (m : Machine) : Moment := ⟨fuel, .block p, m, []⟩

/-- The moment comes to another directly. -/
inductive Next (budget : Budget) : Moment → Moment → Prop
  | part {n task m task' m' callers} (h : Task.Part budget n task m task' m') :
    Next budget ⟨n + 1, task, m, callers⟩ ⟨n, task', m', callers⟩
  | body {n task m f k callers} (h : Task.Opens budget n task m f k) :
    Next budget ⟨n + 1, task, m, callers⟩ ⟨n, .block f.body, k, m.locals :: callers⟩

/-- The moment comes to another on its way. -/
def LeadsTo (budget : Budget) : Moment → Moment → Prop := Relation.ReflTransGen (Next budget)

/-- How the task of the moment ends. -/
def outcome (budget : Budget) (mo : Moment) : EStateM.Result Halt Machine (List Value) :=
  mo.task.run budget mo.fuel mo.machine

end Moment

/-! ## What holds all along -/

namespace Task

variable {budget : Budget} {P : Task → Machine → Prop} {n : Nat} {t t' : Task} {m m' : Machine}

/-- The property holds of the task, about to be done with the given fuel on the machine, and of all
tasks that this one comes to. -/
def Always (budget : Budget) (P : Task → Machine → Prop) : Nat → Task → Machine → Prop
  | 0, t, m => P t m
  | n + 1, t, m => P t m ∧ (∀ t' m', Part budget n t m t' m' → Always budget P n t' m') ∧
    ∀ f k, Opens budget n t m f k → Always budget P n (.block f.body) k

namespace Always

theorem intro (h : P t m) (hparts : ∀ t' m', Part budget n t m t' m' → Always budget P n t' m')
    (hbodies : ∀ f k, Opens budget n t m f k → Always budget P n (.block f.body) k) :
    Always budget P (n + 1) t m := ⟨h, hparts, hbodies⟩

theorem now (h : Always budget P n t m) : P t m := by
  cases n with
  | zero => exact h
  | succ n => exact h.1

theorem part (h : Always budget P (n + 1) t m) (hp : Part budget n t m t' m') :
    Always budget P n t' m' := h.2.1 t' m' hp

theorem body {f : Function} (h : Always budget P (n + 1) t m) (ho : Opens budget n t m f m') :
    Always budget P n (.block f.body) m' := h.2.2 f m' ho

theorem of_forall (h : ∀ t m, P t m) (n : Nat) (t : Task) (m : Machine) :
    Always budget P n t m := by
  induction n generalizing t m with
  | zero => exact h t m
  | succ n ih => exact .intro (h t m) (fun t' m' _ => ih t' m') fun f k _ => ih _ k

theorem int {hint : Option Ty} {i : Int64} {span : Span} (h : P (.eval hint (.int i span)) m) :
    Always budget P (n + 1) (.eval hint (.int i span)) m :=
  .intro h (fun _ _ hp => by cases hp) (fun _ _ ho => by cases ho)

theorem ident {hint : Option Ty} {name : Bytes} {span : Span}
    (h : P (.eval hint (.ident name span)) m) :
    Always budget P (n + 1) (.eval hint (.ident name span)) m :=
  .intro h (fun _ _ hp => by cases hp) (fun _ _ ho => by cases ho)

theorem block_nil (h : P (.block []) m) : Always budget P (n + 1) (.block []) m :=
  .intro h (fun _ _ hp => by cases hp) (fun _ _ ho => by cases ho)

theorem block_cons {s : Stmt} {rest : List Stmt} (h : P (.block (s :: rest)) m)
    (hs : Always budget P n (.stmt s) m)
    (hrest : ∀ k, Exec.stmt budget n s m = .ok .next k → Always budget P n (.block rest) k) :
    Always budget P (n + 1) (.block (s :: rest)) m := by
  refine .intro h (fun _ _ hp => ?_) (fun _ _ ho => by cases ho)
  cases hp with
  | firstStmt => exact hs
  | otherStmts hnext => exact hrest _ hnext

end Always

end Task

/-! ## Soundness at every moment -/

/-- The task can be done safely: hints are types of values, and statements stand where they may. -/
def Task.Sound : Task → Prop
  | .eval hint _ | .items hint _ => ∀ t ∈ hint, Ty.Known t
  | .args hints _ => ∀ t ∈ hints, Ty.Known t
  | .call .. => True
  | .stmt s => ∃ c, s.Placed c
  | .block ss => ∃ c, Stmt.AllPlaced c ss
  | .rounds body _ => ∃ c : Place, Stmt.AllPlaced { c with inLoop := true } body

theorem Exec.Safe.of_ok {α : Type} {post : α → Prop} {x : Exec α} (h : Safe post x)
    {m k : Machine} (hm : m.Sound) {a : α} (hx : x m = .ok a k) : post a ∧ k.Sound := by
  have hends := h m hm
  exact hends.of_ok hx

namespace Task

variable {budget : Budget} {n : Nat} {task task' : Task} {m m' k : Machine} {f : Function}

open Exec in
/-- A part of a sound task on a sound machine is a sound task on a sound machine. -/
theorem Part.sound (h : Part budget n task m task' m') (ht : task.Sound) (hm : m.Sound) :
    task'.Sound ∧ m'.Sound := by
  have tick {span : Span} {m k : Machine} (hm : m.Sound) (hk : tick budget span m = .ok () k) :
      k.Sound := ((safe_tick budget span).of_ok hm hk).2
  have ih := soundAt budget n
  -- Each part begins on the machine that the parts before it left, which are sound by `ih`.
  cases h with
  | vecItems => exact ⟨known_of_mem_itemHint ht, hm⟩
  | negOperand | leftOperand | indexTarget => exact ⟨known_of_mem_none, hm⟩
  | rightOperand hl =>
    obtain ⟨ha, hk⟩ := (ih.eval none _ known_of_mem_none).of_ok hm hl
    exact ⟨known_of_mem_some ha.known, hk⟩
  | callExpr => exact ⟨trivial, hm⟩
  | indexPlace htarget =>
    obtain ⟨-, hk⟩ := (ih.eval none _ known_of_mem_none).of_ok hm htarget
    exact ⟨known_of_mem_none, hk⟩
  | firstItem => exact ⟨ht, hm⟩
  | otherItems he htype =>
    obtain ⟨hv, hk⟩ := (ih.eval _ _ ht).of_ok hm he
    rw [← htype]
    exact ⟨known_of_mem_some hv.known, hk⟩
  | firstArg => exact ⟨fun t hmem => ht t (List.mem_of_mem_head? hmem), hm⟩
  | otherArgs he =>
    refine ⟨fun t hmem => ht t (List.mem_of_mem_tail hmem), ?_⟩
    exact ((ih.eval _ _ fun t hmem => ht t (List.mem_of_mem_head? hmem)).of_ok hm he).2
  | builtinArgs hb =>
    refine ⟨fun t hmem => ?_, hm⟩
    cases hmem
  | functionArgs hb hf =>
    obtain ⟨⟨hf, -⟩, -⟩ := (safe_callee _ _ _ _ _).of_ok hm hf
    exact ⟨hf.hints, hm⟩
  | letValue hk =>
    obtain ⟨c, hc⟩ := ht
    exact ⟨hc, tick hm hk⟩
  | assignValue hk hs => exact ⟨known_of_mem_some ((tick hm hk).slot? hs).known, tick hm hk⟩
  | assignPlace hk hs => exact ⟨known_of_mem_none, tick hm hk⟩
  | assignItem hk hs hp =>
    have hheld := ((tick hm hk).slot? hs).value
    obtain ⟨-, hl⟩ := (ih.eval none _ known_of_mem_none).of_ok (tick hm hk) hp
    exact ⟨known_of_mem_some hheld.elem_known, hl⟩
  | callStmt hk => exact ⟨trivial, tick hm hk⟩
  | whenCond hk | ifCond hk | retValue hk | exitValue hk => exact ⟨known_of_mem_none, tick hm hk⟩
  | whenBody hk hc => exact ⟨ht, ((ih.eval none _ known_of_mem_none).of_ok (tick hm hk) hc).2⟩
  | ifBody hk hc =>
    obtain ⟨c, hplaced⟩ := ht
    exact ⟨⟨c, hplaced.1⟩, ((ih.eval none _ known_of_mem_none).of_ok (tick hm hk) hc).2⟩
  | ifOther hk hc =>
    obtain ⟨c, hplaced⟩ := ht
    exact ⟨⟨c, hplaced.2⟩, ((ih.eval none _ known_of_mem_none).of_ok (tick hm hk) hc).2⟩
  | loopRounds hk => exact ⟨ht, tick hm hk⟩
  | firstStmt =>
    obtain ⟨c, hc⟩ := ht
    exact ⟨⟨c, hc.1⟩, hm⟩
  | otherStmts hs =>
    obtain ⟨c, hc⟩ := ht
    exact ⟨⟨c, hc.2⟩, ((ih.stmt c _ hc.1).of_ok hm hs).2⟩
  | roundBody =>
    obtain ⟨c, hc⟩ := ht
    exact ⟨⟨{ c with inLoop := true }, hc⟩, hm⟩
  | nextRound hb hl =>
    obtain ⟨c, hc⟩ := ht
    exact ⟨⟨c, hc⟩, tick ((ih.block _ _ hc).of_ok hm hb).2 hl⟩

open Exec in
/-- A call on a sound machine opens the body of a sound function on a sound machine. -/
theorem Opens.sound (h : Opens budget n task m f k) (hm : m.Sound) : f.Sound ∧ k.Sound := by
  cases h with
  | call hb hf ha ho hd =>
    obtain ⟨⟨hf, hargc⟩, -⟩ := (safe_callee _ _ _ _ _).of_ok hm hf
    obtain ⟨hvalues, hk⟩ := ((soundAt budget n).args _ _ hf.hints).of_ok hm ha
    obtain ⟨hown, -⟩ := (safe_bindParams _ _ _ [] hargc.symm (hvalues.1.trans hargc.symm)
      hvalues.2 Scope.typed_nil).of_ok hk ho
    exact ⟨hf, hk.enter hown _⟩

end Task

namespace Moment

/-- The machine is sound, its task can be done safely, and the callers' variables are typed. -/
structure Sound (mo : Moment) : Prop where
  machine : mo.machine.Sound
  task : mo.task.Sound
  callers : ∀ own, some own ∈ mo.callers → own.Typed

theorem Sound.next {budget : Budget} {mo mo' : Moment} (h : mo.Sound) (hn : Next budget mo mo') :
    mo'.Sound := by
  cases hn with
  | part hp =>
    obtain ⟨htask, hmachine⟩ := hp.sound h.task h.machine
    exact ⟨hmachine, htask, h.callers⟩
  | body hb =>
    obtain ⟨hf, hk⟩ := hb.sound h.machine
    refine ⟨hk, ⟨_, hf.body⟩, fun own hown => ?_⟩
    rcases List.mem_cons.1 hown with hlocals | hown
    · exact h.machine.locals own hlocals.symm
    · exact h.callers own hown

/-- Every moment of a run that starts soundly is sound. -/
theorem Sound.leadsTo {budget : Budget} {mo mo' : Moment} (h : mo.Sound)
    (hl : LeadsTo budget mo mo') : mo'.Sound := by
  induction hl with
  | refl => exact h
  | tail _ hn ih => exact ih.next hn

open Exec in
/-- However the task of a sound moment ends, the machine is sound and the values are typed. -/
theorem Sound.outcome {budget : Budget} {mo : Moment} (h : mo.Sound) :
    Ends (mo.outcome budget) (fun vs n => (∀ v ∈ vs, v.Typed) ∧ n.Sound)
      (fun halt n => halt.Orderly ∧ n.Sound) := by
  obtain ⟨fuel, task, m, callers⟩ := mo
  obtain ⟨hm, ht, -⟩ := h
  have ih := soundAt budget fuel
  have hflow {x : Exec Flow} {c : Place} (hx : Safe (Flow.Fits c) x) :
      Safe (fun vs => ∀ v ∈ vs, Value.Typed v) (do return (← x).value?.toList) := by
    refine Safe.bind hx fun flow hfits => Safe.pure fun v hv => ?_
    cases flow with
    | next | leave => cases hv
    | ret u => exact hfits.2 v (Option.mem_toList.1 hv)
  cases task with
  | eval hint e =>
    refine Safe.bind (ih.eval hint e ht) (fun v hv => Safe.pure fun w hw => ?_) m hm
    rw [List.mem_singleton.1 hw]
    exact hv
  | items hint es =>
    exact Safe.bind (ih.items hint es ht) (fun r hr => Safe.pure hr.typed) m hm
  | args hints es => exact (ih.args hints es ht m hm).mono (fun _ _ h => ⟨h.1.2, h.2⟩) fun _ _ h => h
  | call wanted name nameSpan args span =>
    refine Safe.bind (ih.call wanted name nameSpan args span) (fun r hr => Safe.pure ?_) m hm
    exact fun v hv => hr.2 v (Option.mem_toList.1 hv)
  | stmt s =>
    obtain ⟨c, hc⟩ := ht
    exact hflow (ih.stmt c s hc) m hm
  | block ss =>
    obtain ⟨c, hc⟩ := ht
    exact hflow (ih.block c ss hc) m hm
  | rounds body span =>
    obtain ⟨c, hc⟩ := ht
    exact hflow (ih.rounds c body span hc) m hm

end Moment
end Scriptlet
