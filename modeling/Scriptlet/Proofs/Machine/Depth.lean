import Scriptlet.Proofs.Machine.Lifetime
import Scriptlet.Proofs.Machine.Narrowing

/-!
# Depth: how many calls are in progress

A machine counts up before it runs the body of a function and down after it, and nothing else
touches the count. So at every moment of a run the count tells how many bodies are being run, and
however a task ends, it is what it was before. A call that would be one too many is refused before
its body begins; and what a program was stopped at takes nothing away from the programs after it.
-/

namespace Scriptlet

namespace Exec

variable {budget : Budget} {n : Nat} {m k : Machine} {α : Type} {a : α}

theorem KeepsTypes.depth_eq {x : Exec α} (hx : KeepsTypes x) (h : x m = .ok a k) :
    k.depth = m.depth := ((hx m).of_ok h).depth

theorem DeclaresOnly.depth_eq {names : List Bytes} {x : Exec α} (hx : DeclaresOnly names x)
    (h : x m = .ok a k) : k.depth = m.depth := ((hx m).of_ok h).depth

theorem depth_eq_of_tick {span : Span} {u : Unit} (h : tick budget span m = .ok u k) :
    k.depth = m.depth := (keepsTypes_tick budget span).depth_eq h

theorem depth_eq_of_eval {hint : Option Ty} {e : Expr} {v : Value}
    (h : eval budget n hint e m = .ok v k) : k.depth = m.depth :=
  ((frameAt budget n).eval hint e).depth_eq h

end Exec

namespace Task

open Exec

variable {budget : Budget} {n : Nat} {t t' : Task} {m m' k l : Machine} {f : Function} {span : Span}
  {own : Scope}

/-! ## Calls that come to the body of their function -/

/-- `Reaches budget n t m span f own k`: the task `t`, a call at `span` begun on `m`, has found its
function `f` and bound the arguments in `own`. On `k` and with fuel `n` there is only the body left
to run. -/
inductive Reaches (budget : Budget) (n : Nat) :
    Task → Machine → Span → Function → Scope → Machine → Prop
  | call {wanted name nameSpan args span m f values k own} (hb : Builtin.ofName? name = none)
    (hf : callee wanted name nameSpan span args.length m = .ok f m)
    (ha : evalArgs budget n (f.params.map Param.type) args m = .ok values k)
    (ho : bindParams f.params args values [] k = .ok own k) :
    Reaches budget n (.call wanted name nameSpan args span) m span f own k

theorem Reaches.depth_eq (h : Reaches budget n t m span f own k) : k.depth = m.depth := by
  cases h with
  | call hb hf ha ho => exact ((frameAt budget n).args _ _).depth_eq ha

/-- The body is run if there is room for one more call. -/
theorem Reaches.opens (h : Reaches budget n t m span f own k) (hroom : k.depth < budget.depth) :
    Opens budget n t m f { k with locals := some own, depth := k.depth + 1 } := by
  cases h with
  | call hb hf ha ho =>
    refine .call hb hf ha ho ?_
    rw [checkDepth_eq, if_neg (Nat.not_le.2 hroom)]

/-- The call is refused if there is none, and the machine is left as the arguments left it. -/
theorem Reaches.refused (h : Reaches budget n t m span f own k) (hfull : budget.depth ≤ k.depth) :
    t.run budget (n + 1) m = .error (.fault ⟨.callDepth budget.depth, span⟩) k := by
  cases h with
  | call hb hf ha ho =>
    rw [Task.run, Exec.call, hb]
    refine bind_eq_of_error ?_
    dsimp only
    rw [bind_eq_of_ok hf, bind_eq_of_ok ha, bind_eq_of_ok ho]
    refine bind_eq_of_error ?_
    rw [checkDepth_eq, if_pos hfull]

theorem Opens.depth_eq (h : Opens budget n t m f l) : l.depth = m.depth + 1 := by
  cases h with
  | call hb hf ha ho hd =>
    have hargs := ((frameAt budget n).args _ _).depth_eq ha
    exact congrArg (· + 1) hargs

theorem Opens.depth_lt (h : Opens budget n t m f l) : m.depth < budget.depth := by
  cases h with
  | call hb hf ha ho hd =>
    have hargs := ((frameAt budget n).args _ _).depth_eq ha
    rw [← hargs]
    refine Nat.lt_of_not_le fun hfull => ?_
    rw [checkDepth_eq, if_pos hfull] at hd
    cases hd

/-! ## The count through a task -/

/-- On the way to one of its parts a task leaves no call in progress. -/
theorem Part.depth_eq (h : Part budget n t m t' m') : m'.depth = m.depth := by
  have ih := frameAt budget n
  cases h with
  -- Parts that a task begins with find the machine as it was, or after the step of a statement.
  | vecItems | negOperand | leftOperand | callExpr | indexTarget | firstItem | firstArg => rfl
  | builtinArgs | functionArgs | firstStmt | roundBody => rfl
  | letValue hk | assignValue hk | assignPlace hk | callStmt hk | whenCond hk | ifCond hk
  | loopRounds hk | retValue hk | exitValue hk => exact depth_eq_of_tick hk
  -- The others find it as the parts before them left it.
  | rightOperand he | indexPlace he | otherItems he | otherArgs he => exact depth_eq_of_eval he
  | assignItem hk hs he | whenBody hk he | ifBody hk he | ifOther hk he =>
    exact (depth_eq_of_eval he).trans (depth_eq_of_tick hk)
  | otherStmts hs => exact (ih.stmt _ _ (List.Subset.refl _)).depth_eq hs
  | nextRound hb hl =>
    have hbody := (ih.block _ _ (List.Subset.refl _)).depth_eq hb
    exact (depth_eq_of_tick hl).trans hbody

end Task

namespace Moment

/-- At the moment as many calls are in progress as its callers and `d` more, which are no more than
there may be. -/
structure Counted (budget : Budget) (d : Nat) (mo : Moment) : Prop where
  depth : mo.machine.depth = d + mo.callers.length
  within : mo.machine.depth ≤ budget.depth

theorem Counted.next {budget : Budget} {d : Nat} {mo mo' : Moment} (h : mo.Counted budget d)
    (hn : Next budget mo mo') : mo'.Counted budget d := by
  cases hn with
  | part hp =>
    have hdepth := hp.depth_eq
    exact ⟨hdepth.trans h.depth, hdepth ▸ h.within⟩
  | body ho =>
    have hdepth := ho.depth_eq
    refine ⟨?_, ?_⟩
    · rw [hdepth, h.depth, List.length_cons, Nat.add_assoc]
    · rw [hdepth]
      exact ho.depth_lt

/-- Every moment of a run is counted right if the first one is. -/
theorem Counted.leadsTo {budget : Budget} {d : Nat} {mo mo' : Moment} (h : mo.Counted budget d)
    (hl : LeadsTo budget mo mo') : mo'.Counted budget d := by
  induction hl with
  | refl => exact h
  | tail _ hn ih => exact ih.next hn

/-- Calls in progress are counted right at the moment and after its task, and its task does not put
one too many in progress. -/
structure Balanced (budget : Budget) (d : Nat) (mo : Moment) : Prop where
  /-- There are `d` calls and one for each body that is being run. -/
  depth : mo.machine.depth = d + mo.callers.length
  within : mo.machine.depth ≤ budget.depth
  /-- Whether the task gives values or is stopped, the count is the same again. -/
  outcome : Ends (mo.outcome budget) (fun _ n => n.depth = mo.machine.depth)
    (fun _ n => n.depth = mo.machine.depth)
  /-- A call that comes to the body of its function runs it, if there is room. -/
  entered : ∀ n span f own k, mo.fuel = n + 1 →
    Task.Reaches budget n mo.task mo.machine span f own k → d + mo.callers.length < budget.depth →
    Next budget mo ⟨n, .block f.body, { k with locals := some own, depth := k.depth + 1 },
      mo.machine.locals :: mo.callers⟩
  /-- If there is none, it is refused with nothing of the body run: no body is opened, and the
  machine is left as the arguments left it. -/
  refused : ∀ n span f own k, mo.fuel = n + 1 →
    Task.Reaches budget n mo.task mo.machine span f own k → d + mo.callers.length = budget.depth →
    (∀ g l, ¬ Task.Opens budget n mo.task mo.machine g l) ∧
      ∃ e, mo.outcome budget = .error (.fault e) k ∧
        e.notice = ⟨utf8 "E0008", utf8 "call stack exhausted",
          utf8 "more than " ++ decimal budget.depth ++ utf8 " nested calls", span⟩

theorem Counted.balanced {budget : Budget} {d : Nat} {mo : Moment} (h : mo.Counted budget d) :
    mo.Balanced budget d := by
  obtain ⟨fuel, task, m, callers⟩ := mo
  refine ⟨h.depth, h.within, ?_, fun n span f own k hfuel hreaches hroom => ?_,
    fun n span f own k hfuel hreaches hfull => ?_⟩
  · have hframe := Task.declaresOnly_run budget fuel task m
    exact hframe.mono (fun _ _ hn => hn.depth) fun _ _ hn => hn.depth
  · subst hfuel
    refine .body (hreaches.opens ?_)
    rw [hreaches.depth_eq, h.depth]
    exact hroom
  · subst hfuel
    have hdepth : m.depth = budget.depth := h.depth.trans hfull
    refine ⟨fun g l ho => ?_, ⟨.callDepth budget.depth, span⟩, ?_, rfl⟩
    · have hlt := ho.depth_lt
      exact absurd hdepth (Nat.ne_of_lt hlt)
    · refine hreaches.refused (Nat.le_of_eq ?_)
      rw [hreaches.depth_eq, hdepth]

end Moment

/-! ## Programs one after the other -/

namespace Machine

/-- Running a program leaves as many calls in progress as there were, however the run ends. -/
theorem ends_run_depth (budget : Budget) (fuel : Nat) (p : Program) (m : Machine) :
    Ends (run budget fuel p m) (fun _ n => n.depth = m.depth) (fun _ n => n.depth = m.depth) := by
  have hblock := (Exec.frameAt budget fuel).block p (Stmt.allLets p) (List.Subset.refl _)
  have hrun : Exec.DeclaresOnly (Stmt.allLets p) (run budget fuel p) := by
    refine Exec.DeclaresOnly.bind (Exec.KeepsTypes.get.declaresOnly _) fun k => ?_
    split
    · exact (Exec.KeepsTypes.fail _ _).declaresOnly _
    · exact Exec.DeclaresOnly.bind hblock fun _ => (Exec.KeepsTypes.pure _).declaresOnly _
  exact (hrun m).mono (fun _ _ hn => hn.depth) fun _ _ hn => hn.depth

/-- The machine once programs were run on it one after the other, each with its own budget and fuel
and to whatever end. -/
def afterAll (m : Machine) : List (Budget × Nat × Program) → Machine
  | [] => m
  | (budget, fuel, p) :: rest => (stateOf (run budget fuel p m)).afterAll rest

theorem depth_afterAll (m : Machine) (session : List (Budget × Nat × Program)) :
    (m.afterAll session).depth = m.depth := by
  induction session generalizing m with
  | nil => rfl
  | cons r rest ih =>
    obtain ⟨budget, fuel, p⟩ := r
    have hrun := ends_run_depth budget fuel p m
    have hstate : (stateOf (run budget fuel p m)).depth = m.depth := by
      cases hr : run budget fuel p m with
      | ok u n => exact hrun.of_ok hr
      | error halt n => exact hrun.of_error hr
    rw [afterAll, ih, hstate]

end Machine

/-- Calls in progress are counted right on a machine that has no more of them than there may be, and
on the one that programs leave when they are run on it before, whatever they end in: the count is
the same again after each task and each program; at every moment of a task it is what it was at the
start and one for each body that is being run, and within the bound; and the call that would be one
too many is refused before its body begins. -/
theorem calls_in_progress_are_balanced {budget : Budget} {m : Machine}
    (hm : m.depth ≤ budget.depth) (session : List (Budget × Nat × Program)) :
    (m.afterAll session).depth = m.depth ∧
      (∀ fuel p, Ends (Machine.run budget fuel p (m.afterAll session))
        (fun _ n => n.depth = m.depth) (fun _ n => n.depth = m.depth)) ∧
      ∀ fuel task mo, Moment.LeadsTo budget ⟨fuel, task, m.afterAll session, []⟩ mo →
        mo.Balanced budget m.depth := by
  have hsession := m.depth_afterAll session
  refine ⟨hsession, fun fuel p => ?_, fun fuel task mo hmo => ?_⟩
  · have hrun := Machine.ends_run_depth budget fuel p (m.afterAll session)
    rw [hsession] at hrun
    exact hrun
  · have hstart : Moment.Counted budget m.depth ⟨fuel, task, m.afterAll session, []⟩ :=
      ⟨hsession, hsession ▸ hm⟩
    exact (hstart.leadsTo hmo).balanced

/-- A recursion without end is refused its third call, and a second program finds all its room. -/
theorem refused_recursion_leaves_room :
    let again : Stmt := .call (utf8 "f") .origin [] .origin .origin
    let p : Program := [.fn (utf8 "f") [] none [again] .origin .origin, again]
    let b : Budget := { depth := 2 }
    let m : Machine := {}
    overBudget (Machine.run b 20 p m) = true ∧ (m.afterAll [(b, 20, p)]).steps = 4 ∧
      m.depth ≤ b.depth ∧ (m.afterAll [(b, 20, p)]).depth = 0 ∧
      ∀ fuel task mo, Moment.LeadsTo b ⟨fuel, task, m.afterAll [(b, 20, p)], []⟩ mo →
        mo.Balanced b 0 := by
  intro again p b m
  have hm : m.depth ≤ b.depth := Nat.zero_le _
  obtain ⟨hdepth, -, hmoments⟩ := calls_in_progress_are_balanced hm [(b, 20, p)]
  exact ⟨by decide +kernel, by decide +kernel, hm, hdepth, hmoments⟩

end Scriptlet
