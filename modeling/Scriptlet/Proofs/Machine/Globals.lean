import Scriptlet.Proofs.Machine.Bound
import Scriptlet.Proofs.Machine.Element
import Scriptlet.Proofs.Machine.Moment
import Scriptlet.Proofs.Machine.Narrowing

/-!
# Globals: where global variables change

The parameters of a function and what it declares are its own variables. So in the course of an
evaluation a global variable changes by an assignment to its name only, and only where the function
being run has no variable of this name itself.

This is shown for the tasks of an evaluation, given that no assignment among them is of this kind.
What runs outside of all functions, and may declare global variables, is left out.
-/

namespace Scriptlet

/-- The name that the statement itself assigns to. -/
def Stmt.assigned? : Stmt → Option Bytes
  | .assign name _ _ | .assignAt name _ _ _ => some name
  | .letVar .. | .call .. | .when .. | .ifElse .. | .loop .. => none
  | .stop .. | .ret .. | .exit .. | .fn .. => none

namespace Machine

variable {name name' : Bytes} {m : Machine}

/-- The function being run has a variable of this name, which hides the global one. -/
def Hides (name : Bytes) (m : Machine) : Prop := ∃ own ∈ m.locals, (own.find? name).isSome

theorem hides_congr {m' : Machine} (h : m'.locals = m.locals) : m'.Hides name ↔ m.Hides name := by
  unfold Hides
  rw [h]

theorem globals_declare (h : m.locals.isSome) (name : Bytes) (v : Value) :
    (m.declare name v).globals = m.globals := by
  obtain ⟨own, hown⟩ := Option.isSome_iff_exists.1 h
  unfold declare
  rw [hown]

theorem globals_assign (h : name' = name → m.Hides name) (v : Value) :
    (m.assign name' v).globals.find? name = m.globals.find? name := by
  by_cases hname : name' = name
  -- A variable of the function itself comes first, and is the one assigned to.
  · obtain ⟨own, hown, hfind⟩ := h hname
    obtain ⟨slot, hslot⟩ := Option.isSome_iff_exists.1 hfind
    subst hname
    unfold assign
    rw [Option.mem_def.1 hown]
    dsimp only
    rw [hslot]
  · unfold assign
    cases m.locals with
    | none => exact Scope.find?_assign_of_ne (fun heq => hname heq.symm) v m.globals
    | some own =>
      dsimp only
      cases own.find? name' with
      | some slot => rfl
      | none => exact Scope.find?_assign_of_ne (fun heq => hname heq.symm) v m.globals

end Machine

/-- The task is no assignment to the global variable of this name. -/
def Task.Spares (name : Bytes) : Task → Machine → Prop
  | .stmt s, m => s.assigned? = some name → m.Hides name
  | _, _ => True

namespace Exec

variable {α β : Type} {name : Bytes} {m k : Machine}

theorem Leaves.stateOf {R : Machine → Machine → Prop} {x : Exec α} (h : Leaves R x) (m : Machine) :
    R m (stateOf (x m)) := by
  have hm := h m
  cases hr : x m with
  | ok a k => exact hm.of_ok hr
  | error halt k => exact hm.of_error hr

/-- However it ends, the global variable of this name is as it was. -/
def Untouched (name : Bytes) (m : Machine) (r : EStateM.Result Halt Machine α) : Prop :=
  (stateOf r).globals.find? name = m.globals.find? name

theorem untouched_bind {x : Exec α} {f : α → Exec β} (hx : Untouched name m (x m))
    (hf : ∀ a k, x m = .ok a k → Untouched name k (f a k)) :
    Untouched name m ((x >>= f) m) := by
  cases hr : x m with
  | ok a k =>
    rw [hr] at hx
    rw [bind_eq_of_ok hr]
    exact (hf a k hr).trans hx
  | error halt k =>
    rw [hr] at hx
    rw [bind_eq_of_error hr]
    exact hx

/-! ## Actions that leave all global variables alone -/

/-- The action leaves all global variables alone. -/
def Still (P : α → Prop) (x : Exec α) : Prop :=
  ∀ m, Ends (x m) (fun a k => P a ∧ k.globals = m.globals) (fun _ k => k.globals = m.globals)

namespace Still

variable {P : α → Prop} {Q : β → Prop}

theorem bind {x : Exec α} {f : α → Exec β} (hx : Still P x) (hf : ∀ a, P a → Still Q (f a)) :
    Still Q (x >>= f) := by
  intro m
  rw [Ends.bind_iff]
  refine (hx m).mono (fun a k ha => ?_) (fun _ _ h => h)
  refine (hf a ha.1 k).mono (fun _ l hl => ⟨hl.1, hl.2.trans ha.2⟩) (fun _ l hl => hl.trans ha.2)

theorem untouched {x : Exec α} (h : Still P x) (name : Bytes) (m : Machine) :
    Untouched name m (x m) := by
  have hm := h m
  unfold Untouched
  cases hr : x m with
  | ok a k => rw [stateOf, (hm.of_ok hr).2]
  | error halt k => rw [stateOf, hm.of_error hr]

theorem throw (halt : Halt) : Still P (throw halt : Exec α) := fun _ => rfl

theorem pure {a : α} (h : P a) : Still P (pure a : Exec α) := fun _ => ⟨h, rfl⟩

end Still

theorem still_write (span : Span) (text : Bytes) : Still (fun _ => True) (write span text) := by
  intro m
  rw [write_eq]
  cases m.output.write text with
  | mk taken sink =>
    cases taken with
    | ok u => exact ⟨trivial, rfl⟩
    | error reason => exact rfl

theorem still_readLine (span : Span) : Still (fun _ => True) (readLine span) := by
  intro m
  unfold readLine
  rw [Ends.bind_iff, Ends.get_iff, Ends.bind_iff, Ends.modify_iff]
  cases m.input.readLine.fst with
  | ok text => exact ⟨trivial, rfl⟩
  | error reason => exact rfl

theorem still_tick (b : Budget) (span : Span) : Still (fun _ => True) (tick b span) := by
  intro m
  rw [tick_eq]
  split
  · rfl
  · split
    · split
      · rfl
      · exact ⟨trivial, rfl⟩
    · exact ⟨trivial, rfl⟩

theorem still_checkDepth (b : Budget) (span : Span) :
    Still (fun _ => True) (checkDepth b span) := by
  intro m
  rw [checkDepth_eq]
  split
  · rfl
  · exact ⟨trivial, rfl⟩

/-- Actions that leave all global variables alone, as a comparison of each action with itself. -/
def still : Comparison id where
  Rel P x _ := Still (fun a => ∃ c, P a c) x
  pure h := .pure ⟨_, h⟩
  bind hx hp := hx.bind fun a ⟨c, hc⟩ => hp a c hc
  stuck := .throw _
  fail _ _ := .throw _
  look m := ⟨⟨m, m.sameNames_id⟩, rfl⟩
  write span text m := (still_write span text m).mono (fun a _ h => ⟨⟨a, rfl⟩, h.2⟩) fun _ _ h => h
  readLine span m := (still_readLine span m).mono (fun a _ h => ⟨⟨a, rfl⟩, h.2⟩) fun _ _ h => h

/-- What counts no steps and changes no variables leaves the global variables alone. -/
theorem untouched_of_still {P : α → β → Prop} {x : Exec α} {y : Exec β} (h : still.Rel P x y)
    (name : Bytes) (m : Machine) : Untouched name m (x m) := Still.untouched h name m

theorem untouched_inCall {x : Exec α} {own : Scope}
    (h : Untouched name { m with locals := some own, depth := m.depth + 1 }
      (x { m with locals := some own, depth := m.depth + 1 })) :
    Untouched name m (inCall own x m) := by
  rw [inCall_eq]
  cases hr : x { m with locals := some own, depth := m.depth + 1 } with
  | ok a k =>
    rw [hr] at h
    exact h
  | error halt k =>
    rw [hr] at h
    exact h

/-! ## Tasks without an assignment to the global variable -/

/-- With a given amount of fuel, tasks without an assignment to the global variable leave it as it
was; statements do so within functions. -/
structure UntouchedAt (b : Budget) (name : Bytes) (n : Nat) : Prop where
  eval : ∀ {hint e m}, Task.Always b (Task.Spares name) n (.eval hint e) m →
    Untouched name m (eval b n hint e m)
  items : ∀ {hint es m}, Task.Always b (Task.Spares name) n (.items hint es) m →
    Untouched name m (evalItems b n hint es m)
  args : ∀ {hints es m}, Task.Always b (Task.Spares name) n (.args hints es) m →
    Untouched name m (evalArgs b n hints es m)
  call : ∀ {wanted fn nameSpan args span m},
    Task.Always b (Task.Spares name) n (.call wanted fn nameSpan args span) m →
    Untouched name m (call b n wanted fn nameSpan args span m)
  stmt : ∀ {s m}, Task.Always b (Task.Spares name) n (.stmt s) m → m.locals.isSome →
    Untouched name m (stmt b n s m)
  block : ∀ {ss m}, Task.Always b (Task.Spares name) n (.block ss) m → m.locals.isSome →
    Untouched name m (block b n ss m)
  rounds : ∀ {body span m}, Task.Always b (Task.Spares name) n (.rounds body span) m →
    m.locals.isSome → Untouched name m (rounds b n body span m)

theorem locals_of_tick {b : Budget} {span : Span} (h : tick b span m = .ok () k) :
    k.locals = m.locals := ((keepsTypes_tick b span m).of_ok h).locals

theorem locals_of_eval {b : Budget} {n : Nat} {hint : Option Ty} {e : Expr} {v : Value}
    (h : eval b n hint e m = .ok v k) : k.locals = m.locals :=
  (((frameAt b n).eval hint e m).of_ok h).locals

theorem isSome_of_stmt {b : Budget} {n : Nat} {s : Stmt} {flow : Flow}
    (h : stmt b n s m = .ok flow k) (hm : m.locals.isSome) : k.locals.isSome := by
  rw [(((frameAt b n).stmt s s.lets (List.Subset.refl _) m).of_ok h).inCall]
  exact hm

theorem isSome_of_block {b : Budget} {n : Nat} {ss : List Stmt} {flow : Flow}
    (h : block b n ss m = .ok flow k) (hm : m.locals.isSome) : k.locals.isSome := by
  rw [(((frameAt b n).block ss _ (List.Subset.refl _) m).of_ok h).inCall]
  exact hm

section Step

open Scriptlet.Task

variable {b : Budget} {n : Nat} (ih : UntouchedAt b name n)
include ih

theorem untouched_eval {hint : Option Ty} {e : Expr}
    (h : Always b (Spares name) (n + 1) (.eval hint e) m) :
    Untouched name m (eval b (n + 1) hint e m) := by
  cases e with
  | int | str | bool => rw [eval]; rfl
  | ident x span =>
    rw [eval]
    refine untouched_bind rfl fun l k hget => ?_
    cases l.slot? x with
    | none => rfl
    | some slot => rfl
  | vec elems span =>
    rw [eval]
    refine untouched_bind (ih.items (h.part .vecItems)) fun r k _ => ?_
    obtain ⟨t, items⟩ := r
    cases t with
    | none => rfl
    | some t => rfl
  | neg operand span =>
    rw [eval]
    refine untouched_bind (ih.eval (h.part .negOperand)) fun v k _ => ?_
    cases v with
    | int i => rfl
    | str _ | bool _ | vec _ _ => rfl
  | binary op left right span =>
    rw [eval]
    refine untouched_bind (ih.eval (h.part .leftOperand)) fun v k hv => ?_
    refine untouched_bind (ih.eval (h.part (.rightOperand hv))) fun w l _ => ?_
    exact untouched_of_still (still.operate op left right v w) name l
  | call fn nameSpan args span =>
    rw [eval]
    refine untouched_bind (ih.call (h.part .callExpr)) fun r k _ => ?_
    cases r with
    | none => rfl
    | some v => rfl
  | index target place span =>
    rw [eval]
    refine untouched_bind (ih.eval (h.part .indexTarget)) fun v k hv => ?_
    cases v with
    | int _ | str _ | bool _ => rfl
    | vec elem items =>
      refine untouched_bind (ih.eval (h.part (.indexPlace hv))) fun i l _ => ?_
      cases i with
      | int i => exact untouched_of_still (still.itemAt place items i) name l
      | str _ | bool _ | vec _ _ => rfl

theorem untouched_evalItems {hint : Option Ty} {es : List Expr}
    (h : Always b (Spares name) (n + 1) (.items hint es) m) :
    Untouched name m (evalItems b (n + 1) hint es m) := by
  cases es with
  | nil => rw [evalItems]; rfl
  | cons e rest =>
    rw [evalItems]
    refine untouched_bind (ih.eval (h.part .firstItem)) fun v k hv => ?_
    dsimp only
    by_cases htype : v.type ≠ hint.getD v.type
    · rw [if_pos htype]
      rfl
    · rw [if_neg htype]
      have hpart := h.part (.otherItems hv (Decidable.of_not_not htype))
      exact untouched_bind (ih.items hpart) fun r l _ => rfl

theorem untouched_evalArgs {hints : List Ty} {es : List Expr}
    (h : Always b (Spares name) (n + 1) (.args hints es) m) :
    Untouched name m (evalArgs b (n + 1) hints es m) := by
  cases es with
  | nil => rw [evalArgs]; rfl
  | cons e rest =>
    rw [evalArgs]
    refine untouched_bind (ih.eval (h.part .firstArg)) fun v k hv => ?_
    exact untouched_bind (ih.args (h.part (.otherArgs hv))) fun vs l _ => rfl

theorem untouched_call {wanted : Bool} {fn : Bytes} {nameSpan : Span} {args : List Expr}
    {span : Span} (h : Always b (Spares name) (n + 1) (.call wanted fn nameSpan args span) m) :
    Untouched name m (call b (n + 1) wanted fn nameSpan args span m) := by
  rw [call]
  cases hb : Builtin.ofName? fn with
  | some f =>
    refine untouched_bind (ih.args (h.part (.builtinArgs hb))) fun values k _ => ?_
    exact untouched_of_still (still.callBuiltin wanted f fn span args values) name k
  | none =>
    have hcallee := untouched_of_still (still.callee wanted fn nameSpan span args.length) name m
    refine untouched_bind hcallee fun f l hf => ?_
    obtain rfl := callee_state hf
    refine untouched_bind (ih.args (h.part (.functionArgs hb hf))) fun values k hvalues => ?_
    have hparams := untouched_of_still (still.bindParams f.params args values []) name k
    refine untouched_bind hparams fun own o hown => ?_
    obtain rfl := bindParams_state hown
    refine untouched_bind ((still_checkDepth b span).untouched name o) fun _ o hdepth => ?_
    obtain rfl := checkDepth_state hdepth
    -- The body runs in a function of its own, on the machine that the arguments left.
    have hbody := ih.block (h.body (.call hb hf hvalues hown hdepth)) rfl
    refine untouched_bind (untouched_inCall hbody) fun flow q _ => ?_
    cases flow with
    | next | leave => exact untouched_of_still (still.returned wanted fn span f.result none) name q
    | ret v => exact untouched_of_still (still.returned wanted fn span f.result v) name q

theorem untouched_letVar {x : Bytes} {nameSpan : Span} {type : Option Ty} {value : Expr}
    {span : Span}
    (h : Always b (Spares name) (n + 1) (.stmt (.letVar x nameSpan type value span)) m)
    (hm : m.locals.isSome) :
    Untouched name m (stmt b (n + 1) (.letVar x nameSpan type value span) m) := by
  rw [stmt]
  refine untouched_bind ((still_tick b span).untouched name m) fun _ k hk => ?_
  refine untouched_bind (ih.eval (h.part (.letValue hk))) fun v l hv => ?_
  -- What is declared in a function is a variable of its own.
  have hdeclare : Untouched name l
      ((do modify (Machine.declare x v); return Flow.next : Exec Flow) l) := by
    have hl : l.locals.isSome := by rw [locals_of_eval hv, locals_of_tick hk]; exact hm
    exact congrArg (Scope.find? name) (Machine.globals_declare hl x v)
  dsimp only
  cases type with
  | none => exact hdeclare
  | some t =>
    dsimp only
    by_cases htype : v.type ≠ t
    · rw [if_pos htype]
      rfl
    · rw [if_neg htype]
      exact hdeclare

theorem untouched_assign {x : Bytes} {value : Expr} {span : Span}
    (h : Always b (Spares name) (n + 1) (.stmt (.assign x value span)) m) :
    Untouched name m (stmt b (n + 1) (.assign x value span) m) := by
  rw [stmt]
  refine untouched_bind ((still_tick b span).untouched name m) fun _ k hk => ?_
  refine untouched_bind rfl fun o l hget => ?_
  cases hget
  cases hs : k.slot? x with
  | none => rfl
  | some slot =>
    refine untouched_bind (ih.eval (h.part (.assignValue hk hs))) fun v l hv => ?_
    have hassign : Untouched name l
        ((do modify (Machine.assign x v); return Flow.next : Exec Flow) l) := by
      -- What hides the global variable when the statement begins hides it still: evaluating the
      -- value declares nothing.
      refine Machine.globals_assign (fun hx => ?_) v
      have hhides : m.Hides name := h.now (congrArg some hx)
      rwa [← Machine.hides_congr (locals_of_tick hk), ← Machine.hides_congr (locals_of_eval hv)]
        at hhides
    by_cases htype : v.type ≠ slot.type
    · dsimp only
      rw [if_pos htype]
      rfl
    · dsimp only
      rw [if_neg htype]
      exact hassign

theorem untouched_assignAt {x : Bytes} {place value : Expr} {span : Span}
    (h : Always b (Spares name) (n + 1) (.stmt (.assignAt x place value span)) m) :
    Untouched name m (stmt b (n + 1) (.assignAt x place value span) m) := by
  rw [stmt]
  refine untouched_bind ((still_tick b span).untouched name m) fun _ k hk => ?_
  refine untouched_bind rfl fun o l hget => ?_
  cases hget
  cases hs : k.slot? x with
  | none => rfl
  | some slot =>
    obtain ⟨type, held⟩ := slot
    cases held with
    | int _ | str _ | bool _ => rfl
    | vec elem items =>
      refine untouched_bind (ih.eval (h.part (.assignPlace hk hs))) fun i l hi => ?_
      cases i with
      | str _ | bool _ | vec _ _ => rfl
      | int i =>
        refine untouched_bind (ih.eval (h.part (.assignItem hk hs hi))) fun v o hv => ?_
        have hset := untouched_of_still (still.setItem place value elem items i v) name o
        refine untouched_bind hset fun changed q hq => ?_
        obtain ⟨rfl, -⟩ := of_setItem_ok hq
        refine Machine.globals_assign (fun hx => ?_) changed
        have hhides : m.Hides name := h.now (congrArg some hx)
        rwa [← Machine.hides_congr (locals_of_tick hk), ← Machine.hides_congr (locals_of_eval hi),
          ← Machine.hides_congr (locals_of_eval hv)] at hhides

theorem untouched_stmt {s : Stmt} (h : Always b (Spares name) (n + 1) (.stmt s) m)
    (hm : m.locals.isSome) : Untouched name m (stmt b (n + 1) s m) := by
  have htick (span : Span) : Untouched name m (tick b span m) :=
    (still_tick b span).untouched name m
  -- A body is run on the variables of the same function.
  have hinside {span : Span} {k l : Machine} {e : Expr} {v : Value}
      (hk : tick b span m = .ok () k) (hv : eval b n none e k = .ok v l) : l.locals.isSome := by
    rw [locals_of_eval hv, locals_of_tick hk]
    exact hm
  cases s with
  | letVar x nameSpan type value span => exact untouched_letVar ih h hm
  | assign x value span => exact untouched_assign ih h
  | assignAt x place value span => exact untouched_assignAt ih h
  | call fn nameSpan args callSpan span =>
    rw [stmt]
    refine untouched_bind (htick span) fun _ k hk => ?_
    exact untouched_bind (ih.call (h.part (.callStmt hk))) fun _ l _ => rfl
  | when cond body bodySpan span =>
    rw [stmt]
    refine untouched_bind (htick span) fun _ k hk => ?_
    refine untouched_bind (ih.eval (h.part (.whenCond hk))) fun v l hv => ?_
    cases v with
    | bool t =>
      cases t with
      | true => exact ih.block (h.part (.whenBody hk hv)) (hinside hk hv)
      | false => rfl
    | int _ | str _ | vec _ _ => rfl
  | ifElse cond body bodySpan other otherSpan span =>
    rw [stmt]
    refine untouched_bind (htick span) fun _ k hk => ?_
    refine untouched_bind (ih.eval (h.part (.ifCond hk))) fun v l hv => ?_
    cases v with
    | bool t =>
      cases t with
      | true => exact ih.block (h.part (.ifBody hk hv)) (hinside hk hv)
      | false => exact ih.block (h.part (.ifOther hk hv)) (hinside hk hv)
    | int _ | str _ | vec _ _ => rfl
  | loop body bodySpan span =>
    rw [stmt]
    refine untouched_bind (htick span) fun _ k hk => ?_
    refine ih.rounds (h.part (.loopRounds hk)) ?_
    rw [locals_of_tick hk]
    exact hm
  | stop span =>
    rw [stmt]
    exact untouched_bind (htick span) fun _ k _ => rfl
  | ret value span =>
    cases value with
    | none =>
      rw [stmt]
      exact untouched_bind (htick span) fun _ k _ => rfl
    | some value =>
      rw [stmt]
      refine untouched_bind (htick span) fun _ k hk => ?_
      exact untouched_bind (ih.eval (h.part (.retValue hk))) fun v l _ => rfl
  | exit value span =>
    rw [stmt]
    refine untouched_bind (htick span) fun _ k hk => ?_
    refine untouched_bind (ih.eval (h.part (.exitValue hk))) fun v l _ => ?_
    cases v with
    | int _ | str _ | bool _ | vec _ _ => rfl
  | fn fn params result body bodySpan span =>
    rw [stmt]
    refine untouched_bind (htick span) fun _ k _ => ?_
    cases Builtin.ofName? fn with
    | some f => rfl
    | none => rfl

theorem untouched_block {ss : List Stmt} (h : Always b (Spares name) (n + 1) (.block ss) m)
    (hm : m.locals.isSome) : Untouched name m (block b (n + 1) ss m) := by
  cases ss with
  | nil => rw [block]; rfl
  | cons s rest =>
    rw [block]
    refine untouched_bind (ih.stmt (h.part .firstStmt) hm) fun flow k hflow => ?_
    cases flow with
    | next => exact ih.block (h.part (.otherStmts hflow)) (isSome_of_stmt hflow hm)
    | leave | ret v => rfl

theorem untouched_rounds {body : List Stmt} {span : Span}
    (h : Always b (Spares name) (n + 1) (.rounds body span) m) (hm : m.locals.isSome) :
    Untouched name m (rounds b (n + 1) body span m) := by
  rw [rounds]
  refine untouched_bind (ih.block (h.part .roundBody) hm) fun flow k hflow => ?_
  cases flow with
  | leave | ret v => rfl
  | next =>
    refine untouched_bind ((still_tick b span).untouched name k) fun _ l hl => ?_
    refine ih.rounds (h.part (.nextRound hflow hl)) ?_
    rw [locals_of_tick hl]
    exact isSome_of_block hflow hm

end Step

theorem untouchedAt (b : Budget) (name : Bytes) (n : Nat) : UntouchedAt b name n := by
  induction n with
  | zero =>
    -- Without fuel nothing is done at all.
    constructor
    · intro hint e m _; rw [eval_zero]; rfl
    · intro hint es m _; rw [evalItems_zero]; rfl
    · intro hints es m _; rw [evalArgs_zero]; rfl
    · intro wanted fn nameSpan args span m _; rw [call_zero]; rfl
    · intro s m _ _; rw [stmt_zero]; rfl
    · intro ss m _ _; rw [block_zero]; rfl
    · intro body span m _ _; rw [rounds_zero]; rfl
  | succ n ih =>
    exact ⟨untouched_eval ih, untouched_evalItems ih, untouched_evalArgs ih, untouched_call ih,
      untouched_stmt ih, untouched_block ih, untouched_rounds ih⟩

/-- After a call that makes no assignment to the global variable of this name, the name means what
it meant before: the parameters of the functions that were run, and what they declared, are gone. -/
theorem slot?_of_call {b : Budget} {n : Nat} {wanted : Bool} {fn : Bytes} {nameSpan : Span}
    {args : List Expr} {span : Span}
    (h : Task.Always b (Task.Spares name) n (.call wanted fn nameSpan args span) m) :
    (stateOf (call b n wanted fn nameSpan args span m)).slot? name = m.slot? name := by
  have hglobals := (untouchedAt b name n).call h
  have hlocals := (Leaves.stateOf ((frameAt b n).call wanted fn nameSpan args span) m).locals
  unfold Untouched at hglobals
  unfold Machine.slot?
  rw [hlocals, hglobals]

end Exec
end Scriptlet
