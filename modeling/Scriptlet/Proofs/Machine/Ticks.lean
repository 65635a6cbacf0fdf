import Scriptlet.Proofs.Machine.Moment
import Scriptlet.Proofs.Machine.Narrowing

/-!
# Ticks: the steps that a run counts

A statement counts a step before it does anything else, and a round of a loop counts one when it is
over. These are the ticks of a run. Of two budgets, one of which allows every step that the other
allows, the narrower one stops a run at a tick that the run has on the wider one as well, and at the
first that it does not allow; what remains of the machine is what the tick found, with the calls in
progress left.
-/

namespace Scriptlet

/-! ## The ticks of a run -/

/-- A step that a run is about to count. -/
structure Tick where
  span : Span
  /-- The machine before the step is counted. -/
  before : Machine
  /-- The variables of the callers, the nearest first, as in a moment. -/
  callers : List (Option Scope)

/-- The machine once all calls in progress are left. -/
def Machine.leaveAll : List (Option Scope) → Machine → Machine
  | [], m => m
  | own :: callers, m => leaveAll callers { m with locals := own, depth := m.depth - 1 }

namespace Tick

/-- The machine with the step counted. -/
def machine (t : Tick) : Machine := { t.before with steps := t.before.steps + 1 }

/-- The number of the step. -/
def number (t : Tick) : Nat := t.before.steps + 1

/-- What remains of the machine if the run is stopped at the tick. -/
def remains (t : Tick) : Machine := t.machine.leaveAll t.callers

end Tick

/-- The task itself counts a step at the span: a statement at once, a loop after a round. -/
inductive Task.Counts (b : Budget) (n : Nat) : Task → Machine → Span → Machine → Prop
  | stmt {s m} : Counts b n (.stmt s) m s.span m
  | round {body span m k} (h : Exec.block b n body m = .ok .next k) :
    Counts b n (.rounds body span) m span k

/-- The task of the moment itself counts the step. -/
inductive Moment.Counts (b : Budget) : Moment → Tick → Prop
  | intro {n task m callers span k} (h : Task.Counts b n task m span k) :
    Counts b ⟨n + 1, task, m, callers⟩ ⟨span, k, callers⟩

/-- The tick is one of the run of the program on the machine. -/
def Program.Ticks (b : Budget) (p : Program) (m : Machine) (t : Tick) : Prop :=
  ∃ fuel mo, Moment.LeadsTo b (.start fuel p m) mo ∧ mo.Counts b t

/-! ## Where a run is stopped -/

/-- Where a task is stopped at a tick: at one that it counts itself, in one of its parts, or in the
body of the function that it calls. -/
inductive Task.StoppedBy (b b' : Budget) (n : Nat) (t : Task) (m : Machine) (halt : Halt)
    (k : Machine) : Prop
  | tick {span l} (hc : t.Counts b' n m span l) (ht : Exec.tick b span l = .error halt k)
  | part {t' m'} (hp : Task.Part b' n t m t' m') (ht : t'.run b n m' = .error halt k)
  | body {f l o} (ho : Task.Opens b' n t m f l) (hb : Exec.block b n f.body l = .error halt o)
    (hk : k = { o with locals := m.locals, depth := o.depth - 1 })

namespace Exec

variable {b b' : Budget} {n : Nat} {m k : Machine} {halt : Halt}
  (hb : b.Narrows b') (hhalt : halt.FromTick)
include hb hhalt

open Scriptlet.Task

theorem stoppedBy_eval {hint : Option Ty} {e : Expr}
    (h : eval b (n + 1) hint e m = .error halt k) :
    StoppedBy b b' n (.eval hint e) m halt k := by
  have hn := narrowAt hb n
  cases e with
  | int | str | bool => rw [eval] at h; cases h
  | ident name span =>
    rw [eval, bind_eq_of_ok (show (get : Exec Machine) m = .ok m m from rfl)] at h
    cases hslot : m.slot? name with
    | some slot => rw [hslot] at h; cases h
    | none =>
      rw [hslot] at h
      exact absurd hhalt (fail_tickless ⟨Code.noConfusion, Code.noConfusion⟩ h)
  | vec elems span =>
    rw [eval] at h
    rcases of_bind_error h with hitems | ⟨⟨t, items⟩, l, -, h⟩
    · exact .part .vecItems (bind_eq_of_error hitems)
    · cases t with
      | some t => cases h
      | none => exact absurd hhalt (fail_tickless ⟨Code.noConfusion, Code.noConfusion⟩ h)
  | neg operand span =>
    rw [eval] at h
    rcases of_bind_error h with hoperand | ⟨v, l, -, h⟩
    · exact .part .negOperand (bind_eq_of_error hoperand)
    · cases v with
      | int i => cases h
      | str | bool | vec => exact absurd hhalt (mismatch_tickless h)
  | binary op left right span =>
    rw [eval] at h
    rcases of_bind_error h with hleft | ⟨u, l, hleft, h⟩
    · exact .part .leftOperand (bind_eq_of_error hleft)
    · rcases of_bind_error h with hright | ⟨v, o, -, h⟩
      · exact .part (.rightOperand ((hn.eval none left).of_ok hleft)) (bind_eq_of_error hright)
      · exact absurd hhalt (not_fromTick_of_tickless (tickless.operate op left right u v) h)
  | call name nameSpan args span =>
    rw [eval] at h
    rcases of_bind_error h with hcall | ⟨v, l, -, h⟩
    · exact .part .callExpr (bind_eq_of_error hcall)
    · cases v with
      | some v => cases h
      | none => cases h; exact hhalt.elim
  | index target place span =>
    rw [eval] at h
    rcases of_bind_error h with htarget | ⟨u, l, htarget, h⟩
    · exact .part .indexTarget (bind_eq_of_error htarget)
    · cases u with
      | vec elem items =>
        rcases of_bind_error h with hplace | ⟨v, o, -, h⟩
        · exact .part (.indexPlace ((hn.eval none target).of_ok htarget))
            (bind_eq_of_error hplace)
        · cases v with
          | int i =>
            exact absurd hhalt (not_fromTick_of_tickless (tickless.itemAt place items i) h)
          | str | bool | vec => exact absurd hhalt (mismatch_tickless h)
      | int | str | bool => exact absurd hhalt (mismatch_tickless h)

theorem stoppedBy_items {hint : Option Ty} {es : List Expr}
    (h : evalItems b (n + 1) hint es m = .error halt k) :
    StoppedBy b b' n (.items hint es) m halt k := by
  have hn := narrowAt hb n
  cases es with
  | nil => rw [evalItems] at h; cases h
  | cons e rest =>
    rw [evalItems] at h
    rcases of_bind_error h with hitem | ⟨v, l, hitem, h⟩
    · exact .part .firstItem (bind_eq_of_error hitem)
    · dsimp only at h
      split at h
      · exact absurd hhalt (fail_tickless ⟨Code.noConfusion, Code.noConfusion⟩ h)
      · rename_i htype
        exact .part (.otherItems ((hn.eval hint e).of_ok hitem) (Decidable.not_not.1 htype))
          (bind_eq_of_error (of_map_error h))

omit hhalt in
theorem stoppedBy_args {hints : List Ty} {es : List Expr}
    (h : evalArgs b (n + 1) hints es m = .error halt k) :
    StoppedBy b b' n (.args hints es) m halt k := by
  have hn := narrowAt hb n
  cases es with
  | nil => rw [evalArgs] at h; cases h
  | cons e rest =>
    rw [evalArgs] at h
    rcases of_bind_error h with hfirst | ⟨v, l, hfirst, h⟩
    · exact .part .firstArg (bind_eq_of_error hfirst)
    · exact .part (.otherArgs ((hn.eval _ e).of_ok hfirst)) (of_map_error h)

theorem stoppedBy_call {wanted : Bool} {name : Bytes} {nameSpan span : Span} {args : List Expr}
    (h : call b (n + 1) wanted name nameSpan args span m = .error halt k) :
    StoppedBy b b' n (.call wanted name nameSpan args span) m halt k := by
  have hn := narrowAt hb n
  rw [call] at h
  cases hname : Builtin.ofName? name with
  | some f =>
    rw [hname] at h
    dsimp only at h
    rcases of_bind_error h with hargs | ⟨values, l, -, h⟩
    · exact .part (.builtinArgs hname) hargs
    · exact absurd hhalt
        (not_fromTick_of_tickless (tickless.callBuiltin wanted f name span args values) h)
  | none =>
    rw [hname] at h
    dsimp only at h
    rcases of_bind_error h with hcallee | ⟨f, l, hcallee, hcalled⟩
    · exact absurd hhalt
        (not_fromTick_of_tickless (tickless.callee wanted name nameSpan span args.length) hcallee)
    obtain rfl := callee_state hcallee
    rcases of_bind_error hcalled with hargs | ⟨values, o, hargs, hbound⟩
    · exact .part (.functionArgs hname hcallee) hargs
    rcases of_bind_error hbound with hown | ⟨own, q, hown, hchecked⟩
    · exact absurd hhalt
        (not_fromTick_of_tickless (tickless.bindParams f.params args values []) hown)
    obtain rfl := bindParams_state hown
    rcases of_bind_error hchecked with hdepth | ⟨u, r, hdepth, hran⟩
    · exact absurd hhalt (checkDepth_tickless hdepth)
    obtain rfl := checkDepth_state hdepth
    rcases of_bind_error hran with hbody | ⟨flow, r', -, hreturned⟩
    · obtain ⟨o, hbody, hk⟩ := of_inCall_error hbody
      have hargs' := (hn.args _ args).of_ok hargs
      rw [checkDepth_of_narrows hb] at hdepth
      have hopens := Opens.call hname hcallee hargs' hown hdepth
      -- The arguments left the caller's variables as they were.
      have hframe := ((frameAt b' n).args _ args l).of_ok hargs'
      rw [hframe.locals] at hk
      exact .body hopens hbody hk
    · cases flow with
      | next | leave =>
        exact absurd hhalt
          (not_fromTick_of_tickless (tickless.returned wanted name span f.result none) hreturned)
      | ret v =>
        exact absurd hhalt
          (not_fromTick_of_tickless (tickless.returned wanted name span f.result v) hreturned)

theorem stoppedBy_stmt {s : Stmt} (h : stmt b (n + 1) s m = .error halt k) :
    StoppedBy b b' n (.stmt s) m halt k := by
  have hn := narrowAt hb n
  rw [stmt.eq_def] at h
  dsimp only at h
  rcases of_bind_error h with hcounted | ⟨⟨⟩, l, hcounted, h⟩
  · exact .tick .stmt hcounted
  have hl := hb.tick _ _ _ hcounted
  have hget : (get : Exec Machine) l = .ok l l := rfl
  cases s with
  | letVar name nameSpan type value span =>
    rcases of_bind_error h with hvalue | ⟨v, o, -, h⟩
    · exact .part (.letValue hl) (bind_eq_of_error hvalue)
    · cases type with
      | none => cases h
      | some t =>
        dsimp only at h
        split at h
        · exact absurd hhalt (fail_tickless ⟨Code.noConfusion, Code.noConfusion⟩ h)
        · cases h
  | assign name value span =>
    dsimp only at h
    rw [bind_eq_of_ok hget] at h
    cases hslot : l.slot? name with
    | none =>
      rw [hslot] at h
      exact absurd hhalt (fail_tickless ⟨Code.noConfusion, Code.noConfusion⟩ h)
    | some slot =>
      rw [hslot] at h
      rcases of_bind_error h with hvalue | ⟨v, o, -, h⟩
      · exact .part (.assignValue hl hslot) (bind_eq_of_error hvalue)
      · split at h
        · exact absurd hhalt (fail_tickless ⟨Code.noConfusion, Code.noConfusion⟩ h)
        · cases h
  | assignAt name place value span =>
    dsimp only at h
    rw [bind_eq_of_ok hget] at h
    cases hslot : l.slot? name with
    | none =>
      rw [hslot] at h
      exact absurd hhalt (fail_tickless ⟨Code.noConfusion, Code.noConfusion⟩ h)
    | some slot =>
      rw [hslot] at h
      obtain ⟨type, held⟩ := slot
      cases held with
      | int | str | bool => exact absurd hhalt (mismatch_tickless h)
      | vec elem items =>
        rcases of_bind_error h with hplace | ⟨u, o, hplace, h⟩
        · exact .part (.assignPlace hl hslot) (bind_eq_of_error hplace)
        · cases u with
          | str | bool | vec => exact absurd hhalt (mismatch_tickless h)
          | int i =>
            rcases of_bind_error h with hvalue | ⟨v, q, -, h⟩
            · exact .part (.assignItem hl hslot ((hn.eval none place).of_ok hplace))
                (bind_eq_of_error hvalue)
            · rcases of_bind_error h with hset | ⟨changed, r, -, h⟩
              · exact absurd hhalt
                  (not_fromTick_of_tickless (tickless.setItem place value elem items i v) hset)
              · cases h
  | call name nameSpan args callSpan span =>
    exact .part (.callStmt hl) (bind_eq_of_error (of_map_error h))
  | when cond body bodySpan span =>
    rcases of_bind_error h with hcond | ⟨v, o, hcond, h⟩
    · exact .part (.whenCond hl) (bind_eq_of_error hcond)
    · cases v with
      | int | str | vec => exact absurd hhalt (mismatch_tickless h)
      | bool c =>
        cases c with
        | false => cases h
        | true =>
          exact .part (.whenBody hl ((hn.eval none cond).of_ok hcond)) (bind_eq_of_error h)
  | ifElse cond body bodySpan other otherSpan span =>
    rcases of_bind_error h with hcond | ⟨v, o, hcond, h⟩
    · exact .part (.ifCond hl) (bind_eq_of_error hcond)
    · have hcond' := (hn.eval none cond).of_ok hcond
      cases v with
      | int | str | vec => exact absurd hhalt (mismatch_tickless h)
      | bool c =>
        cases c with
        | false => exact .part (.ifOther hl hcond') (bind_eq_of_error h)
        | true => exact .part (.ifBody hl hcond') (bind_eq_of_error h)
  | loop body bodySpan span => exact .part (.loopRounds hl) (bind_eq_of_error h)
  | stop span => cases h
  | ret value span =>
    cases value with
    | none => cases h
    | some value =>
      rcases of_bind_error h with hvalue | ⟨v, o, -, h⟩
      · exact .part (.retValue hl) (bind_eq_of_error hvalue)
      · cases h
  | exit value span =>
    rcases of_bind_error h with hvalue | ⟨v, o, -, h⟩
    · exact .part (.exitValue hl) (bind_eq_of_error hvalue)
    · cases v with
      | int i => cases h; exact hhalt.elim
      | str | bool | vec => exact absurd hhalt (mismatch_tickless h)
  | fn name params result body bodySpan span =>
    dsimp only at h
    cases hname : Builtin.ofName? name with
    | some f =>
      rw [hname] at h
      exact absurd hhalt (fail_tickless ⟨Code.noConfusion, Code.noConfusion⟩ h)
    | none => rw [hname] at h; cases h

omit hhalt in
theorem stoppedBy_block {ss : List Stmt} (h : block b (n + 1) ss m = .error halt k) :
    StoppedBy b b' n (.block ss) m halt k := by
  have hn := narrowAt hb n
  cases ss with
  | nil => rw [block] at h; cases h
  | cons s rest =>
    rw [block] at h
    rcases of_bind_error h with hfirst | ⟨flow, l, hfirst, h⟩
    · exact .part .firstStmt (bind_eq_of_error hfirst)
    · cases flow with
      | next => exact .part (.otherStmts ((hn.stmt s).of_ok hfirst)) (bind_eq_of_error h)
      | leave | ret => cases h

omit hhalt in
theorem stoppedBy_rounds {body : List Stmt} {span : Span}
    (h : rounds b (n + 1) body span m = .error halt k) :
    StoppedBy b b' n (.rounds body span) m halt k := by
  have hn := narrowAt hb n
  rw [rounds] at h
  rcases of_bind_error h with hbody | ⟨flow, l, hbody, h⟩
  · exact .part .roundBody (bind_eq_of_error hbody)
  · have hbody' := (hn.block body).of_ok hbody
    cases flow with
    | leave | ret => cases h
    | next =>
      rcases of_bind_error h with hcounted | ⟨⟨⟩, o, hcounted, h⟩
      · exact .tick (.round hbody') hcounted
      · exact .part (.nextRound hbody' (hb.tick _ _ _ hcounted)) (bind_eq_of_error h)

/-- A task that is stopped at a tick is stopped at one that the wider budget has as well. -/
theorem stoppedBy_run {t : Task} (h : t.run b (n + 1) m = .error halt k) :
    StoppedBy b b' n t m halt k := by
  cases t with
  | eval hint e => exact stoppedBy_eval hb hhalt (of_map_error h)
  | items hint es => exact stoppedBy_items hb hhalt (of_map_error h)
  | args hints es => exact stoppedBy_args hb h
  | call wanted name nameSpan args span => exact stoppedBy_call hb hhalt (of_map_error h)
  | stmt s => exact stoppedBy_stmt hb hhalt (of_map_error h)
  | block ss => exact stoppedBy_block hb (of_map_error h)
  | rounds body span => exact stoppedBy_rounds hb (of_map_error h)

end Exec

/-! ## What stops a run -/

namespace Exec

variable {b b' : Budget} {n : Nat} {t t' : Task} {m m' : Machine}

/-- On the narrower budget, the task is cut short on its way to a part, or stops where the part
stops. -/
def StopsWith (b : Budget) (n : Nat) (t : Task) (m : Machine) (limit : Nat)
    (r : EStateM.Result Halt Machine (List Value)) : Prop :=
  CutBy limit (t.run b (n + 1) m) ∨
    ∀ halt k, r = .error halt k → t.run b (n + 1) m = .error halt k

section Part

variable (hb : b.Narrows b')
include hb

theorem follows_tick {span : Span} {k : Machine} (h : tick b' span m = .ok () k) :
    tick b span m = .ok () k ∨ CutBy k.steps (tick b span m) :=
  (truncates_tick_of_narrows hb span).follows h

theorem stopsWith_eval {hint : Option Ty} {e : Expr} (hp : Task.Part b' n (.eval hint e) m t' m') :
    StopsWith b n (.eval hint e) m m'.steps (t'.run b n m') := by
  have hn := narrowAt hb n
  cases hp with
  | vecItems | negOperand | leftOperand | callExpr | indexTarget =>
    refine .inr fun halt k h => ?_
    rw [Task.run, eval]
    exact bind_eq_of_error (bind_eq_of_error (of_map_error h))
  | rightOperand hl =>
    rcases (hn.eval _ _).follows hl with hl | hcut
    · refine .inr fun halt k h => ?_
      rw [Task.run, eval]
      refine bind_eq_of_error ?_
      rw [bind_eq_of_ok hl]
      exact bind_eq_of_error (of_map_error h)
    · refine .inl ?_
      rw [Task.run, eval]
      exact (hcut.bind _).bind _
  | indexPlace ht =>
    rcases (hn.eval _ _).follows ht with ht | hcut
    · refine .inr fun halt k h => ?_
      rw [Task.run, eval]
      refine bind_eq_of_error ?_
      rw [bind_eq_of_ok ht]
      exact bind_eq_of_error (of_map_error h)
    · refine .inl ?_
      rw [Task.run, eval]
      exact (hcut.bind _).bind _

theorem stopsWith_items {hint : Option Ty} {es : List Expr}
    (hp : Task.Part b' n (.items hint es) m t' m') :
    StopsWith b n (.items hint es) m m'.steps (t'.run b n m') := by
  cases hp with
  | firstItem =>
    refine .inr fun halt k h => ?_
    rw [Task.run, evalItems]
    exact bind_eq_of_error (bind_eq_of_error (of_map_error h))
  | otherItems he htype =>
    rcases ((narrowAt hb n).eval _ _).follows he with he | hcut
    · refine .inr fun halt k h => ?_
      rw [Task.run, evalItems]
      refine bind_eq_of_error ?_
      rw [bind_eq_of_ok he, if_neg (not_not_intro htype)]
      exact bind_eq_of_error (of_map_error h)
    · refine .inl ?_
      rw [Task.run, evalItems]
      exact (hcut.bind _).bind _

theorem stopsWith_args {hints : List Ty} {es : List Expr}
    (hp : Task.Part b' n (.args hints es) m t' m') :
    StopsWith b n (.args hints es) m m'.steps (t'.run b n m') := by
  cases hp with
  | firstArg =>
    refine .inr fun halt k h => ?_
    rw [Task.run, evalArgs]
    exact bind_eq_of_error (of_map_error h)
  | otherArgs he =>
    rcases ((narrowAt hb n).eval _ _).follows he with he | hcut
    · refine .inr fun halt k h => ?_
      rw [Task.run, evalArgs, bind_eq_of_ok he]
      exact bind_eq_of_error h
    · refine .inl ?_
      rw [Task.run, evalArgs]
      exact hcut.bind _

omit hb in
theorem stopsWith_call {wanted : Bool} {name : Bytes} {nameSpan span : Span} {args : List Expr}
    (hp : Task.Part b' n (.call wanted name nameSpan args span) m t' m') :
    StopsWith b n (.call wanted name nameSpan args span) m m'.steps (t'.run b n m') := by
  cases hp with
  | builtinArgs hname =>
    refine .inr fun halt k h => ?_
    rw [Task.run, call, hname]
    exact bind_eq_of_error (bind_eq_of_error h)
  | functionArgs hname hf =>
    refine .inr fun halt k h => ?_
    rw [Task.run, call, hname]
    refine bind_eq_of_error ?_
    dsimp only
    rw [bind_eq_of_ok hf]
    exact bind_eq_of_error h

/-- The step of a statement comes before all of its parts. -/
theorem stopsWith_of_tick {s : Stmt} {k : Machine} {limit : Nat}
    {r : EStateM.Result Halt Machine (List Value)} (hk : tick b' s.span m = .ok () k)
    (hle : k.steps ≤ limit)
    (h : tick b s.span m = .ok () k → StopsWith b n (.stmt s) m limit r) :
    StopsWith b n (.stmt s) m limit r := by
  rcases follows_tick hb hk with hk | hcut
  · exact h hk
  · refine .inl ?_
    rw [Task.run, stmt.eq_def]
    exact ((hcut.mono hle).bind _).bind _

theorem stopsWith_stmt {s : Stmt} (hp : Task.Part b' n (.stmt s) m t' m') :
    StopsWith b n (.stmt s) m m'.steps (t'.run b n m') := by
  have hn := narrowAt hb n
  have hget (k : Machine) : (get : Exec Machine) k = .ok k k := rfl
  have hlater {hint : Option Ty} {e : Expr} {k l : Machine} {v : Value}
      (h : eval b' n hint e k = .ok v l) : k.steps ≤ l.steps :=
    ((hn.eval hint e).precedes_of_ok h).steps
  cases hp with
  | letValue hk | callStmt hk | whenCond hk | ifCond hk | retValue hk | exitValue hk =>
    refine stopsWith_of_tick hb hk (Nat.le_refl _) fun hk => .inr fun halt k h => ?_
    rw [Task.run, stmt]
    refine bind_eq_of_error ?_
    rw [bind_eq_of_ok hk]
    exact bind_eq_of_error (of_map_error h)
  | assignValue hk hs =>
    refine stopsWith_of_tick hb hk (Nat.le_refl _) fun hk => .inr fun halt k h => ?_
    rw [Task.run, stmt]
    refine bind_eq_of_error ?_
    rw [bind_eq_of_ok hk, bind_eq_of_ok (hget _), hs]
    exact bind_eq_of_error (of_map_error h)
  | assignPlace hk hs =>
    refine stopsWith_of_tick hb hk (Nat.le_refl _) fun hk => .inr fun halt k h => ?_
    rw [Task.run, stmt]
    refine bind_eq_of_error ?_
    rw [bind_eq_of_ok hk, bind_eq_of_ok (hget _), hs]
    exact bind_eq_of_error (of_map_error h)
  | assignItem hk hs hp =>
    refine stopsWith_of_tick hb hk (hlater hp) fun hk => ?_
    rcases (hn.eval _ _).follows hp with hp | hcut
    · refine .inr fun halt k h => ?_
      rw [Task.run, stmt]
      refine bind_eq_of_error ?_
      rw [bind_eq_of_ok hk, bind_eq_of_ok (hget _), hs]
      dsimp only
      rw [bind_eq_of_ok hp]
      exact bind_eq_of_error (of_map_error h)
    · refine .inl ?_
      rw [Task.run, stmt]
      refine CutBy.bind ?_ _
      rw [bind_eq_of_ok hk, bind_eq_of_ok (hget _), hs]
      exact hcut.bind _
  | whenBody hk hc | ifBody hk hc | ifOther hk hc =>
    refine stopsWith_of_tick hb hk (hlater hc) fun hk => ?_
    rcases (hn.eval _ _).follows hc with hc | hcut
    · refine .inr fun halt k h => ?_
      rw [Task.run, stmt]
      refine bind_eq_of_error ?_
      rw [bind_eq_of_ok hk, bind_eq_of_ok hc]
      exact of_map_error h
    · refine .inl ?_
      rw [Task.run, stmt]
      refine CutBy.bind ?_ _
      rw [bind_eq_of_ok hk]
      exact hcut.bind _
  | loopRounds hk =>
    refine stopsWith_of_tick hb hk (Nat.le_refl _) fun hk => .inr fun halt k h => ?_
    rw [Task.run, stmt]
    refine bind_eq_of_error ?_
    rw [bind_eq_of_ok hk]
    exact of_map_error h

theorem stopsWith_block {ss : List Stmt} (hp : Task.Part b' n (.block ss) m t' m') :
    StopsWith b n (.block ss) m m'.steps (t'.run b n m') := by
  cases hp with
  | firstStmt =>
    refine .inr fun halt k h => ?_
    rw [Task.run, block]
    exact bind_eq_of_error (bind_eq_of_error (of_map_error h))
  | otherStmts hs =>
    rcases ((narrowAt hb n).stmt _).follows hs with hs | hcut
    · refine .inr fun halt k h => ?_
      rw [Task.run, block]
      refine bind_eq_of_error ?_
      rw [bind_eq_of_ok hs]
      exact of_map_error h
    · refine .inl ?_
      rw [Task.run, block]
      exact (hcut.bind _).bind _

/-- After a round comes its step. -/
theorem rounds_of_body {body : List Stmt} {k : Machine} (hbody : block b' n body m = .ok .next k)
    (span : Span) : CutBy k.steps (rounds b (n + 1) body span m) ∨
      rounds b (n + 1) body span m = (do tick b span; rounds b n body span) k := by
  rw [rounds]
  rcases ((narrowAt hb n).block _).follows hbody with hbody | hcut
  · exact .inr (bind_eq_of_ok hbody)
  · exact .inl (hcut.bind _)

theorem stopsWith_rounds {body : List Stmt} {span : Span}
    (hp : Task.Part b' n (.rounds body span) m t' m') :
    StopsWith b n (.rounds body span) m m'.steps (t'.run b n m') := by
  cases hp with
  | roundBody =>
    refine .inr fun halt k h => ?_
    rw [Task.run, rounds]
    exact bind_eq_of_error (bind_eq_of_error (of_map_error h))
  | nextRound hbody hl =>
    have hlater := ((truncates_tick_of_narrows hb span).precedes_of_ok hl).steps
    rcases rounds_of_body hb hbody span with hcut | heq
    · exact .inl ((hcut.mono hlater).bind _)
    · rcases follows_tick hb hl with hl | hcut
      · refine .inr fun halt k h => bind_eq_of_error (heq.trans ?_)
        rw [bind_eq_of_ok hl]
        exact of_map_error h
      · refine .inl (CutBy.bind ?_ _)
        rw [heq]
        exact hcut.bind _

/-- On the narrower budget, a task is stopped where one of its parts is stopped, if not before. -/
theorem stopsWith_part (hp : Task.Part b' n t m t' m') :
    StopsWith b n t m m'.steps (t'.run b n m') := by
  cases t with
  | eval hint e => exact stopsWith_eval hb hp
  | items hint es => exact stopsWith_items hb hp
  | args hints es => exact stopsWith_args hb hp
  | call wanted name nameSpan args span => exact stopsWith_call hp
  | stmt s => exact stopsWith_stmt hb hp
  | block ss => exact stopsWith_block hb hp
  | rounds body span => exact stopsWith_rounds hb hp

/-- On the narrower budget, a call is stopped where the body of its function is stopped, if not
before; and then the function is left. -/
theorem stopsWith_opens {f : Function} (ho : Task.Opens b' n t m f m') :
    CutBy m'.steps (t.run b (n + 1) m) ∨
      ∀ halt o, block b n f.body m' = .error halt o →
        t.run b (n + 1) m = .error halt { o with locals := m.locals, depth := o.depth - 1 } := by
  cases ho with
  | call hname hf ha hown hd =>
    have hframe := ((frameAt b' n).args _ _ _).of_ok ha
    rcases ((narrowAt hb n).args _ _).follows ha with ha | hcut
    · refine .inr fun halt o h => ?_
      rw [Task.run, call, hname]
      refine bind_eq_of_error ?_
      dsimp only
      rw [bind_eq_of_ok hf, bind_eq_of_ok ha, bind_eq_of_ok hown]
      rw [checkDepth_of_narrows hb, bind_eq_of_ok hd]
      refine bind_eq_of_error ?_
      unfold inCall
      rw [h, hframe.locals]
    · refine .inl ?_
      rw [Task.run, call, hname]
      refine CutBy.bind ?_ _
      dsimp only
      rw [bind_eq_of_ok hf]
      exact hcut.bind _

/-- On the narrower budget, a task is stopped at a tick of its own that is not allowed, if not
before. -/
theorem stopsWith_counts {span : Span} (hc : Task.Counts b' n t m span m') :
    CutBy m'.steps (t.run b (n + 1) m) ∨
      ∀ halt k, tick b span m' = .error halt k → t.run b (n + 1) m = .error halt k := by
  cases hc with
  | stmt =>
    refine .inr fun halt k h => ?_
    rw [Task.run, stmt.eq_def]
    exact bind_eq_of_error (bind_eq_of_error h)
  | round hbody =>
    rcases rounds_of_body hb hbody span with hcut | heq
    · exact .inl (hcut.bind _)
    · exact .inr fun halt k h => bind_eq_of_error (heq.trans (bind_eq_of_error h))

end Part

theorem grows_run (b : Budget) (n : Nat) (t : Task) : Grows (fun _ => True) (t.run b n) := by
  have ih := growthAt b n
  have hmap {α β : Type} {P : α → Prop} {x : Exec α} (hx : Grows P x) (f : α → β) :
      Grows (fun _ => True) (do return f (← x)) := hx.bind fun _ _ => .pure trivial
  cases t with
  | eval hint e => exact hmap (ih.eval hint e) fun v => [v]
  | items hint es => exact hmap (ih.items hint es) Prod.snd
  | args hints es => exact (ih.args hints es).mono fun _ _ => trivial
  | call wanted name nameSpan args span =>
    exact hmap (ih.call wanted name nameSpan args span) Option.toList
  | stmt s => exact hmap (ih.stmt s) fun flow => flow.value?.toList
  | block ss => exact hmap (ih.block ss) fun flow => flow.value?.toList
  | rounds body span => exact hmap (ih.rounds body span) fun flow => flow.value?.toList

/-- A task that is cut short was begun with no more steps counted. -/
theorem CutBy.steps_le {b : Budget} {n limit : Nat} {t : Task} {m : Machine}
    (h : CutBy limit (t.run b n m)) : m.steps ≤ limit := by
  obtain ⟨halt, k, -, hr, hk⟩ := h
  have hgrows := precedes_stateOf (grows_run b n t) m
  rw [hr] at hgrows
  exact Nat.le_trans hgrows.steps hk

theorem run_zero (b : Budget) (t : Task) (m : Machine) : t.run b 0 m = .error .outOfFuel m := by
  cases t with
  | eval hint e => rw [Task.run, eval_zero]; rfl
  | items hint es => rw [Task.run, evalItems_zero]; rfl
  | args hints es => rw [Task.run, evalArgs_zero]; rfl
  | call => rw [Task.run, call_zero]; rfl
  | stmt s => rw [Task.run, stmt_zero]; rfl
  | block ss => rw [Task.run, block_zero]; rfl
  | rounds body span => rw [Task.run, rounds_zero]; rfl

end Exec

/-! ## From a run to its ticks, and from a tick to the run -/

theorem Machine.leaveAll_append (callers callers' : List (Option Scope)) (m : Machine) :
    m.leaveAll (callers ++ callers') = (m.leaveAll callers).leaveAll callers' := by
  induction callers generalizing m with
  | nil => rfl
  | cons own rest ih => exact ih _

namespace Moment

open Exec

variable {b b' : Budget} (hb : b.Narrows b')
include hb

/-- If a moment on the wider budget is cut short on the narrower one, then so is the moment before
it. -/
theorem cutBy_of_next {mo mo' : Moment} {limit : Nat} (hn : Next b' mo mo')
    (h : CutBy limit (mo'.outcome b)) : CutBy limit (mo.outcome b) := by
  have hle := h.steps_le
  obtain ⟨halt, k, hhalt, hr, hk⟩ := h
  cases hn with
  | part hp =>
    rcases stopsWith_part hb hp with hcut | hstops
    · exact hcut.mono hle
    · exact ⟨halt, k, hhalt, hstops halt k hr, hk⟩
  | body ho =>
    rcases stopsWith_opens hb ho with hcut | hstops
    · exact hcut.mono hle
    · exact ⟨halt, _, hhalt, hstops halt k (of_map_error hr), hk⟩

theorem cutBy_of_leadsTo {mo mo' : Moment} {limit : Nat} (hl : LeadsTo b' mo mo')
    (h : CutBy limit (mo'.outcome b)) : CutBy limit (mo.outcome b) := by
  induction hl with
  | refl => exact h
  | tail _ hn ih => exact ih (cutBy_of_next hb hn h)

/-- A run goes no further than to a tick that the narrower budget does not allow. -/
theorem cutBy_of_counts {mo mo' : Moment} {t : Tick} {halt : Halt} {k : Machine}
    (hl : LeadsTo b' mo mo') (hc : mo'.Counts b' t)
    (h : tick b t.span t.before = .error halt k) : CutBy t.number (mo.outcome b) := by
  refine cutBy_of_leadsTo hb hl ?_
  obtain ⟨hhalt, rfl⟩ := of_tick_error h
  cases hc with
  | intro hc =>
    rcases stopsWith_counts hb hc with hcut | hstops
    · exact hcut.mono (Nat.le_succ _)
    · exact ⟨halt, _, hhalt, hstops halt _ h, Nat.le_refl _⟩

/-- A moment that is stopped at a tick leads to this tick, also on the wider budget, and what is
left of the machine is what the tick leaves of it. -/
theorem exists_tick_of_stopped {halt : Halt} (hhalt : halt.FromTick) {mo : Moment} {k : Machine}
    (h : mo.outcome b = .error halt k) :
    ∃ mo' t inner, LeadsTo b' mo mo' ∧ mo'.Counts b' t ∧ t.callers = inner ++ mo.callers ∧
      tick b t.span t.before = .error halt t.machine ∧ k = t.machine.leaveAll inner := by
  obtain ⟨fuel, task, m, callers⟩ := mo
  change task.run b fuel m = .error halt k at h
  induction fuel generalizing task m callers k with
  | zero =>
    rw [run_zero] at h
    cases h
    exact hhalt.elim
  | succ n ih =>
    cases stoppedBy_run hb hhalt h with
    | tick hc ht =>
      obtain ⟨-, hk⟩ := of_tick_error ht
      subst hk
      exact ⟨_, _, [], .refl, .intro hc, rfl, ht, rfl⟩
    | part hp ht =>
      obtain ⟨mo', t, inner, hl, hrest⟩ := ih _ _ callers ht
      exact ⟨mo', t, inner, hl.head (.part hp), hrest⟩
    | @body f l o ho hbody hk =>
      obtain ⟨mo', t, inner, hl, hc, hcallers, ht, ho'⟩ :=
        ih (.block f.body) l (m.locals :: callers) (bind_eq_of_error hbody)
      refine ⟨mo', t, inner ++ [m.locals], hl.head (.body ho), hc, ?_, ht, ?_⟩
      · rw [hcallers, List.append_assoc]
        rfl
      · rw [Machine.leaveAll_append, ← ho', hk, Machine.leaveAll, Machine.leaveAll]

end Moment

namespace Machine

open Exec

variable {b b' : Budget} {p : Program} {m k : Machine} {halt : Halt} {n : Nat}

theorem steps_leaveAll (callers : List (Option Scope)) (m : Machine) :
    (m.leaveAll callers).steps = m.steps := by
  induction callers generalizing m with
  | nil => rfl
  | cons own rest ih => exact ih _

/-- How a run is stopped is how its first moment is. -/
theorem outcome_start_of_run (hc : b.cancelled m = none) (h : run b n p m = .error halt k) :
    (Moment.start n p m).outcome b = .error halt k := by
  rw [run_of_not_cancelled hc] at h
  split at h
  · cases h
  · rename_i hblock
    cases h
    exact bind_eq_of_error hblock

theorem run_of_outcome_start (hc : b.cancelled m = none)
    (h : (Moment.start n p m).outcome b = .error halt k) : run b n p m = .error halt k := by
  have hblock : block b n p m = .error halt k := of_map_error h
  rw [run_of_not_cancelled hc, hblock]

section Narrows

variable (hb : b.Narrows b') (hc : b.cancelled m = none)
include hb hc

/-- With the same fuel, the run on the narrower budget is cut short at a tick or is the same. -/
theorem shortens_run_of_narrows (hc' : b'.cancelled m = none) (n : Nat) (p : Program) :
    Shortens Halt.FromTick Eq (run b n p m) (run b' n p m) := by
  rw [run_eq, run_eq, hc, hc']
  have hbody : Truncates Halt.FromTick Eq (do discard (block b n p) : Exec Unit)
      (do discard (block b' n p) : Exec Unit) :=
    .bind ((narrowAt hb n).block p) fun _ _ _ => .pure rfl
  exact hbody.shortens m

/-- A run that is stopped at a tick is stopped at one of the run on the wider budget. -/
theorem exists_tick_of_run (hhalt : halt.FromTick) (h : run b n p m = .error halt k) :
    ∃ t, p.Ticks b' m t ∧ tick b t.span t.before = .error halt t.machine ∧ k = t.remains := by
  obtain ⟨mo, t, inner, hl, hcounts, hcallers, ht, hk⟩ :=
    Moment.exists_tick_of_stopped hb hhalt (outcome_start_of_run hc h)
  have hinner : t.callers = inner := hcallers.trans (List.append_nil inner)
  subst hinner
  exact ⟨t, ⟨n, mo, hl, hcounts⟩, ht, hk⟩

/-- A run goes no further than to a tick that its budget does not allow, if the run on the wider
budget has this tick. -/
theorem exists_cutBy_run {t : Tick} (ht : p.Ticks b' m t)
    (h : tick b t.span t.before = .error halt k) : ∃ n, CutBy t.number (run b n p m) := by
  obtain ⟨n, mo, hl, hcounts⟩ := ht
  obtain ⟨halt', k', hhalt, hr, hk⟩ := Moment.cutBy_of_counts hb hl hcounts h
  exact ⟨n, halt', k', hhalt, run_of_outcome_start hc hr, hk⟩

end Narrows
end Machine
end Scriptlet
