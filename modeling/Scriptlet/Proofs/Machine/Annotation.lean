import Mathlib.Data.List.Forall2
import Scriptlet.Proofs.Machine.Bound
import Scriptlet.Proofs.Machine.Coupling
import Scriptlet.Proofs.Machine.Hints
import Scriptlet.Proofs.Machine.Moment
import Scriptlet.Proofs.Machine.Narrowing
import Scriptlet.Proofs.Source.Insignificance

/-!
# Annotation: types that are written out

A declaration that is always evaluated to a value of one type can have this type written to it, and
nothing but the text changes. To see this the two programs are followed side by side. On the way
their machines differ in the bodies of declared functions only. Where the declaration is executed,
the one evaluation goes on without a hint and the other with one, and so down to the first items of
vector literals; but the hint is for the type that the value has anyway.

That the declaration is evaluated so is known of the moments of the first run only, so what is to be
shown of a task is shown for the machines on which that run comes to it.
-/

namespace Scriptlet

/-- The machine with other functions declared. -/
def Machine.withFunctions (fs : List (Bytes × Function)) (m : Machine) : Machine :=
  { m with functions := fs }

/-- Whether and why a run is cancelled does not depend on the functions declared. -/
def Budget.IgnoresFunctions (b : Budget) : Prop :=
  ∀ (m : Machine) fs, b.cancelled (m.withFunctions fs) = b.cancelled m

theorem Budget.IgnoresFunctions.blind {b : Budget} (hb : b.IgnoresFunctions) : b.Blind :=
  fun _ m => hb m _

/-- A declaration that is written without a type, and a type that may be written to it. -/
structure Annotation where
  name : Bytes
  nameSpan : Span
  value : Expr
  span : Span
  type : Ty

namespace Annotation

/-- The declaration without the type. -/
def plain (a : Annotation) : Stmt := .letVar a.name a.nameSpan none a.value a.span

/-- The declaration with the type. -/
def typed (a : Annotation) : Stmt := .letVar a.name a.nameSpan (some a.type) a.value a.span

/-- The second statement is the first with the type written to the declaration, wherever in it this
is found; it may also be left as it is. -/
inductive Writes (a : Annotation) : Stmt → Stmt → Prop
  | same (s : Stmt) : Writes a s s
  | here : Writes a a.plain a.typed
  | when {cond body body' bodySpan span} (h : List.Forall₂ (Writes a) body body') :
    Writes a (.when cond body bodySpan span) (.when cond body' bodySpan span)
  | ifElse {cond body body' bodySpan other other' otherSpan span}
    (h : List.Forall₂ (Writes a) body body') (ho : List.Forall₂ (Writes a) other other') :
    Writes a (.ifElse cond body bodySpan other otherSpan span)
      (.ifElse cond body' bodySpan other' otherSpan span)
  | loop {body body' bodySpan span} (h : List.Forall₂ (Writes a) body body') :
    Writes a (.loop body bodySpan span) (.loop body' bodySpan span)
  | fn {name params result body body' bodySpan span} (h : List.Forall₂ (Writes a) body body') :
    Writes a (.fn name params result body bodySpan span)
      (.fn name params result body' bodySpan span)

theorem writes_all_same (a : Annotation) (ss : List Stmt) : List.Forall₂ a.Writes ss ss :=
  List.forall₂_same.2 fun s _ => .same s

/-- The second function is the first with the type written in its body. -/
structure WritesIn (a : Annotation) (f f' : Function) : Prop where
  params : f'.params = f.params
  result : f'.result = f.result
  body : List.Forall₂ a.Writes f.body f'.body

/-- The functions declared are the same under the same names, but for the type written in them. -/
def WritesInAll (a : Annotation) (fs fs' : List (Bytes × Function)) : Prop :=
  List.Forall₂ (fun d d' => d'.1 = d.1 ∧ a.WritesIn d.2 d'.2) fs fs'

theorem writesInAll_same (a : Annotation) (fs : List (Bytes × Function)) : a.WritesInAll fs fs :=
  List.forall₂_same.2 fun d _ => ⟨rfl, rfl, rfl, a.writes_all_same d.2.body⟩

theorem WritesInAll.lookup {a : Annotation} {fs fs' : List (Bytes × Function)}
    (h : a.WritesInAll fs fs') (name : Bytes) :
    Option.Rel a.WritesIn (fs.lookup name) (fs'.lookup name) := by
  induction h with
  | nil => exact .none
  | @cons d d' fs fs' hd _ ih =>
    obtain ⟨name', f⟩ := d
    obtain ⟨_, f'⟩ := d'
    obtain ⟨hname, hf⟩ := hd
    cases hname
    rw [List.lookup_cons, List.lookup_cons]
    cases name == name' with
    | true => exact .some hf
    | false => exact ih

theorem WritesInAll.define {a : Annotation} {fs fs' : List (Bytes × Function)}
    (h : a.WritesInAll fs fs') {f f' : Function} (hf : a.WritesIn f f') (name : Bytes) :
    a.WritesInAll ((name, f) :: fs.filter (·.1 != name))
      ((name, f') :: fs'.filter (·.1 != name)) := by
  refine .cons ⟨rfl, hf⟩ (List.rel_filter ?_ h)
  rintro d d' ⟨hd, -⟩
  dsimp only
  rw [hd]

/-- Machines that are the same but for the type written in the functions declared. -/
def bodies (a : Annotation) : Coupling where
  Rel m m' := ∃ fs, m' = m.withFunctions fs ∧ a.WritesInAll m.functions fs
  input := by rintro m _ ⟨fs, rfl, -⟩; rfl
  output := by rintro m _ ⟨fs, rfl, -⟩; rfl
  steps := by rintro m _ ⟨fs, rfl, -⟩; rfl
  depth := by rintro m _ ⟨fs, rfl, -⟩; rfl
  withInput := by rintro m _ ⟨fs, rfl, h⟩ input; exact ⟨fs, rfl, h⟩
  withOutput := by rintro m _ ⟨fs, rfl, h⟩ output; exact ⟨fs, rfl, h⟩
  withSteps := by rintro m _ ⟨fs, rfl, h⟩ steps; exact ⟨fs, rfl, h⟩

open Exec
open Scriptlet.Task (Always)

variable {a : Annotation} {α : Type}

theorem coupled_slot (name : Bytes) : Coupled a.bodies (fun m m' => m'.slot? name = m.slot? name)
    (get : Exec Machine) get := by
  apply Coupled.get
  rintro m _ ⟨fs, rfl, -⟩
  rfl

theorem coupled_declare (name : Bytes) (v : Value) :
    Coupled a.bodies Eq (modify (Machine.declare name v) : Exec PUnit)
      (modify (Machine.declare name v)) := by
  apply Coupled.modify
  rintro m _ ⟨fs, rfl, h⟩
  unfold Machine.declare
  rw [show (m.withFunctions fs).locals = m.locals from rfl]
  split
  · exact ⟨fs, rfl, h⟩
  · exact ⟨fs, rfl, h⟩

theorem coupled_assign (name : Bytes) (v : Value) :
    Coupled a.bodies Eq (modify (Machine.assign name v) : Exec PUnit)
      (modify (Machine.assign name v)) := by
  apply Coupled.modify
  rintro m _ ⟨fs, rfl, h⟩
  unfold Machine.assign
  rw [show (m.withFunctions fs).locals = m.locals from rfl]
  split
  · exact ⟨fs, rfl, h⟩
  · split
    · exact ⟨fs, rfl, h⟩
    · exact ⟨fs, rfl, h⟩

theorem coupled_define (name : Bytes) {f f' : Function} (hf : a.WritesIn f f') :
    Coupled a.bodies Eq (modify (Machine.define name f) : Exec PUnit)
      (modify (Machine.define name f')) := by
  apply Coupled.modify
  rintro m _ ⟨fs, rfl, h⟩
  exact ⟨_, rfl, h.define hf name⟩

theorem coupled_callee (wanted : Bool) (name : Bytes) (nameSpan span : Span) (argc : Nat) :
    Coupled a.bodies a.WritesIn (callee wanted name nameSpan span argc)
      (callee wanted name nameSpan span argc) := by
  have hlook : Coupled a.bodies
      (fun m m' => Option.Rel a.WritesIn (m.function? name) (m'.function? name))
      (get : Exec Machine) get := by
    apply Coupled.get
    rintro m _ ⟨fs, rfl, h⟩
    exact h.lookup name
  refine hlook.bind fun m m' hm => ?_
  generalize m.function? name = found, m'.function? name = found' at hm
  cases hm with
  | none => exact .throw _
  | @some f f' hf =>
    dsimp only
    rw [hf.params, hf.result]
    exact .branch (.throw _) (.branch (.throw _) (.pure hf))

theorem bodies_enter {m m' : Machine} (hm : a.bodies.Rel m m') (own : Scope) :
    a.bodies.Rel { m with locals := some own, depth := m.depth + 1 }
      { m' with locals := some own, depth := m'.depth + 1 } := by
  obtain ⟨fs, rfl, h⟩ := hm
  exact ⟨fs, rfl, h⟩

theorem alike_inCall {P : α → α → Prop} {x y : Exec α} {m m' : Machine} {own : Scope}
    (hm : a.bodies.Rel m m')
    (h : Alike a.bodies P (x { m with locals := some own, depth := m.depth + 1 })
      (y { m' with locals := some own, depth := m'.depth + 1 })) :
    Alike a.bodies P (inCall own x m) (inCall own y m') := by
  obtain ⟨fs, rfl, -⟩ := hm
  rw [inCall_eq, inCall_eq]
  cases hr : x { m with locals := some own, depth := m.depth + 1 } with
  | ok v k =>
    rw [hr] at h
    obtain ⟨w, _, hw, hvw, gs, rfl, hk⟩ := h
    rw [hw]
    exact ⟨w, _, rfl, hvw, gs, rfl, hk⟩
  | error halt k =>
    rw [hr] at h
    obtain ⟨_, hw, gs, rfl, hk⟩ := h
    rw [hw]
    exact ⟨_, rfl, gs, rfl, hk⟩

/-! ## Executions of the declaration -/

/-- An execution of the declaration, if the task is one, evaluates it to a value of the type. -/
def Fits (a : Annotation) (b : Budget) (t : Task) (m : Machine) : Prop :=
  t = .stmt a.plain → ∀ k, tick b a.span m = .ok () k →
    ∃ v l, a.value.EndsIn b none k (.ok v l) ∧ v.type = a.type

variable {b : Budget} {n : Nat} {m m' k k' : Machine}

/-- The hints are the same; or there is none, and the second one is for the type that the value has
anyway. -/
def Anticipates (b : Budget) (e : Expr) (m : Machine) (hint hint' : Option Ty) : Prop :=
  hint' = hint ∨
    hint = none ∧ ∃ n v k, eval b n none e m = .ok v k ∧ hint' = some v.type

/-- The same of the items of a vector literal. -/
def AnticipatesItems (b : Budget) (es : List Expr) (m : Machine) (hint hint' : Option Ty) : Prop :=
  hint' = hint ∨
    hint = none ∧ ∃ n u items k, evalItems b n none es m = .ok (some u, items) k ∧ hint' = some u

theorem Anticipates.type_eq {e : Expr} {hint : Option Ty} {u : Ty} {v : Value}
    (h : Anticipates b e m hint (some u)) (hv : eval b n hint e m = .ok v k) :
    hint = some u ∨ hint = none ∧ v.type = u := by
  rcases h with hsame | ⟨rfl, n', w, l, hw, hu⟩
  · exact .inl hsame.symm
  · have hunique := (Expr.endsIn_of_eq hv rfl).unique (Expr.endsIn_of_eq hw rfl)
    cases hunique
    exact .inr ⟨rfl, (Option.some.inj hu).symm⟩

theorem Anticipates.items {elems : List Expr} {span : Span} {hint hint' : Option Ty}
    (h : Anticipates b (.vec elems span) m hint hint') :
    AnticipatesItems b elems m (itemHint hint) (itemHint hint') := by
  rcases h with rfl | ⟨rfl, n, v, k, hv, rfl⟩
  · exact .inl rfl
  · cases n with
    | zero => rw [eval_zero] at hv; cases hv
    | succ n =>
      rw [eval] at hv
      obtain ⟨⟨u, items⟩, l, hitems, hv⟩ := exists_of_bind_ok hv
      cases u with
      | none => cases hv
      | some u =>
        cases hv
        exact .inr ⟨rfl, n, u, items, k, hitems, itemHint_eq_some_iff.2 rfl⟩

theorem AnticipatesItems.first {e : Expr} {rest : List Expr} {hint hint' : Option Ty}
    (h : AnticipatesItems b (e :: rest) m hint hint') : Anticipates b e m hint hint' := by
  rcases h with rfl | ⟨rfl, n, u, items, k, hitems, rfl⟩
  · exact .inl rfl
  · cases n with
    | zero => rw [evalItems_zero] at hitems; cases hitems
    | succ n =>
      rw [evalItems] at hitems
      obtain ⟨v, l, hv, hitems⟩ := exists_of_bind_ok hitems
      rw [Option.getD_none, if_neg (fun hne => hne rfl)] at hitems
      obtain ⟨⟨u', items'⟩, l', hrest, hitems⟩ := exists_of_bind_ok hitems
      cases hitems
      have hu : some u = some v.type := type_of_evalItems hrest
      exact .inr ⟨rfl, n, v, l, hv, hu⟩

theorem AnticipatesItems.eq_of_nil {hint hint' : Option Ty}
    (h : AnticipatesItems b [] m hint hint') : hint' = hint := by
  rcases h with rfl | ⟨rfl, n, u, items, k, hitems, rfl⟩
  · rfl
  · cases n with
    | zero => rw [evalItems_zero] at hitems; cases hitems
    | succ n => rw [evalItems] at hitems; cases hitems

/-! ## Both programs in step -/

theorem coupled_tick (hb : b.IgnoresFunctions) (span : Span) :
    Coupled a.bodies Eq (tick b span) (tick b span) := by
  apply Coupled.tick
  rintro m _ ⟨fs, rfl, -⟩
  exact hb m fs

/-- With a given amount of fuel the tasks of both programs end alike. -/
structure AlikeAt (a : Annotation) (b : Budget) (n : Nat) : Prop where
  eval : ∀ {hint hint' e m m'}, Always b (a.Fits b) n (.eval hint e) m →
    Anticipates b e m hint hint' → a.bodies.Rel m m' →
    Alike a.bodies Eq (eval b n hint e m) (eval b n hint' e m')
  items : ∀ {hint hint' es m m'}, Always b (a.Fits b) n (.items hint es) m →
    AnticipatesItems b es m hint hint' → a.bodies.Rel m m' →
    Alike a.bodies Eq (evalItems b n hint es m) (evalItems b n hint' es m')
  args : ∀ {hints es m m'}, Always b (a.Fits b) n (.args hints es) m → a.bodies.Rel m m' →
    Alike a.bodies Eq (evalArgs b n hints es m) (evalArgs b n hints es m')
  call : ∀ {wanted name nameSpan args span m m'},
    Always b (a.Fits b) n (.call wanted name nameSpan args span) m → a.bodies.Rel m m' →
    Alike a.bodies Eq (call b n wanted name nameSpan args span m)
      (call b n wanted name nameSpan args span m')
  stmt : ∀ {s s' m m'}, Always b (a.Fits b) n (.stmt s) m → a.Writes s s' → a.bodies.Rel m m' →
    Alike a.bodies Eq (stmt b n s m) (stmt b n s' m')
  block : ∀ {ss ss' m m'}, Always b (a.Fits b) n (.block ss) m → List.Forall₂ a.Writes ss ss' →
    a.bodies.Rel m m' → Alike a.bodies Eq (block b n ss m) (block b n ss' m')
  rounds : ∀ {body body' span m m'}, Always b (a.Fits b) n (.rounds body span) m →
    List.Forall₂ a.Writes body body' → a.bodies.Rel m m' →
    Alike a.bodies Eq (rounds b n body span m) (rounds b n body' span m')

section Step

variable (ih : a.AlikeAt b n)
include ih

theorem alike_eval {hint hint' : Option Ty} {e : Expr}
    (h : Always b (a.Fits b) (n + 1) (.eval hint e) m) (hhint : Anticipates b e m hint hint')
    (hm : a.bodies.Rel m m') :
    Alike a.bodies Eq (eval b (n + 1) hint e m) (eval b (n + 1) hint' e m') := by
  -- Only for a vector literal do the hints matter, and there they are handed on to the items.
  cases e with
  | int | str | bool =>
    rw [eval, eval]
    exact Coupled.pure rfl _ _ hm
  | ident name span =>
    rw [eval, eval]
    refine alike_bind (coupled_slot name _ _ hm) fun l l' k k' _ hl hk => ?_
    rw [hl]
    cases l.slot? name with
    | none => exact Coupled.throw _ _ _ hk
    | some slot => exact Coupled.pure rfl _ _ hk
  | vec elems span =>
    rw [eval, eval]
    refine alike_seq (ih.items (h.part .vecItems) hhint.items hm) fun r k k' _ hk => ?_
    obtain ⟨t, items⟩ := r
    cases t with
    | none => exact Coupled.throw _ _ _ hk
    | some t => exact Coupled.pure rfl _ _ hk
  | neg operand span =>
    rw [eval, eval]
    refine alike_seq (ih.eval (h.part .negOperand) (.inl rfl) hm) fun v k k' _ hk => ?_
    cases v with
    | int i => exact Coupled.pure rfl _ _ hk
    | str _ | bool _ | vec _ _ => exact Coupled.throw _ _ _ hk
  | binary op left right span =>
    rw [eval, eval]
    refine alike_seq (ih.eval (h.part .leftOperand) (.inl rfl) hm) fun v k k' hv hk => ?_
    refine alike_seq (ih.eval (h.part (.rightOperand hv)) (.inl rfl) hk) fun w l l' _ hl => ?_
    exact Coupled.operate op left right v w _ _ hl
  | call name nameSpan args span =>
    rw [eval, eval]
    refine alike_seq (ih.call (h.part .callExpr) hm) fun r k k' _ hk => ?_
    cases r with
    | none => exact Coupled.throw _ _ _ hk
    | some v => exact Coupled.pure rfl _ _ hk
  | index target place span =>
    rw [eval, eval]
    refine alike_seq (ih.eval (h.part .indexTarget) (.inl rfl) hm) fun v k k' hv hk => ?_
    cases v with
    | int _ | str _ | bool _ => exact Coupled.throw _ _ _ hk
    | vec elem items =>
      refine alike_seq (ih.eval (h.part (.indexPlace hv)) (.inl rfl) hk) fun i l l' _ hl => ?_
      cases i with
      | int i => exact Coupled.itemAt place items i _ _ hl
      | str _ | bool _ | vec _ _ => exact Coupled.throw _ _ _ hl

theorem alike_evalItems {hint hint' : Option Ty} {es : List Expr}
    (h : Always b (a.Fits b) (n + 1) (.items hint es) m)
    (hhint : AnticipatesItems b es m hint hint') (hm : a.bodies.Rel m m') :
    Alike a.bodies Eq (evalItems b (n + 1) hint es m) (evalItems b (n + 1) hint' es m') := by
  cases es with
  | nil =>
    obtain rfl := hhint.eq_of_nil
    rw [evalItems]
    exact Coupled.pure rfl _ _ hm
  | cons e rest =>
    rw [evalItems, evalItems]
    refine alike_seq (ih.eval (h.part .firstItem) hhint.first hm) fun v k k' hv hk => ?_
    -- From the first item on both literals hold the same type.
    have helem : hint'.getD v.type = hint.getD v.type := by
      cases hint' with
      | none =>
        rcases hhint with rfl | ⟨rfl, -⟩
        · rfl
        · rfl
      | some u =>
        rcases hhint.first.type_eq hv with rfl | ⟨rfl, rfl⟩
        · rfl
        · rfl
    dsimp only
    rw [helem]
    by_cases htype : v.type ≠ hint.getD v.type
    · rw [if_pos htype]
      exact Coupled.throw _ _ _ hk
    · rw [if_neg htype]
      have hpart := h.part (.otherItems hv (Decidable.of_not_not htype))
      refine alike_seq (ih.items hpart (.inl rfl) hk) fun r l l' _ hl => ?_
      exact Coupled.pure rfl _ _ hl

theorem alike_evalArgs {hints : List Ty} {es : List Expr}
    (h : Always b (a.Fits b) (n + 1) (.args hints es) m) (hm : a.bodies.Rel m m') :
    Alike a.bodies Eq (evalArgs b (n + 1) hints es m) (evalArgs b (n + 1) hints es m') := by
  cases es with
  | nil =>
    rw [evalArgs]
    exact Coupled.pure rfl _ _ hm
  | cons e rest =>
    rw [evalArgs]
    refine alike_seq (ih.eval (h.part .firstArg) (.inl rfl) hm) fun v k k' hv hk => ?_
    refine alike_seq (ih.args (h.part (.otherArgs hv)) hk) fun vs l l' _ hl => ?_
    exact Coupled.pure rfl _ _ hl

theorem alike_call {wanted : Bool} {name : Bytes} {nameSpan : Span} {args : List Expr}
    {span : Span} (h : Always b (a.Fits b) (n + 1) (.call wanted name nameSpan args span) m)
    (hm : a.bodies.Rel m m') :
    Alike a.bodies Eq (call b (n + 1) wanted name nameSpan args span m)
      (call b (n + 1) wanted name nameSpan args span m') := by
  rw [call]
  cases hb : Builtin.ofName? name with
  | some f =>
    refine alike_seq (ih.args (h.part (.builtinArgs hb)) hm) fun values k k' _ hk => ?_
    exact Coupled.callBuiltin wanted f name span args values _ _ hk
  | none =>
    refine alike_bind (coupled_callee wanted name nameSpan span args.length _ _ hm)
      fun f f' l l' hf hff' hl => ?_
    obtain rfl := callee_state hf
    rw [hff'.params, hff'.result]
    refine alike_seq (ih.args (h.part (.functionArgs hb hf)) hl) fun values k k' hvalues hk => ?_
    refine alike_seq (Coupled.bindParams f.params args values _ _ hk) fun own o o' hown ho => ?_
    obtain rfl := bindParams_state hown
    refine alike_seq (Coupled.checkDepth b span _ _ ho) fun _ q q' hdepth hq => ?_
    obtain rfl := checkDepth_state hdepth
    have hopens := h.body (.call hb hf hvalues hown hdepth)
    have hbody := ih.block hopens hff'.body (bodies_enter hq own)
    refine alike_seq (alike_inCall hq hbody) fun flow r r' _ hr => ?_
    exact Coupled.returned wanted name span f.result flow _ _ hr

variable (hb : b.IgnoresFunctions)
include hb

theorem alike_letVar {name : Bytes} {nameSpan : Span} {type type' : Option Ty} {value : Expr}
    {span : Span}
    (h : Always b (a.Fits b) (n + 1) (.stmt (.letVar name nameSpan type value span)) m)
    (htype : ∀ k, tick b span m = .ok () k → Anticipates b value k type type')
    (hm : a.bodies.Rel m m') :
    Alike a.bodies Eq (stmt b (n + 1) (.letVar name nameSpan type value span) m)
      (stmt b (n + 1) (.letVar name nameSpan type' value span) m') := by
  rw [stmt, stmt]
  refine alike_seq (coupled_tick hb span _ _ hm) fun _ k k' htick hk => ?_
  have hhint := htype k htick
  refine alike_seq (ih.eval (h.part (.letValue htick)) hhint hk) fun v l l' hv hl => ?_
  have hdeclare : Coupled a.bodies Eq (do modify (Machine.declare name v); return Flow.next)
      (do modify (Machine.declare name v); return Flow.next) :=
    (coupled_declare name v).seq fun _ => .pure rfl
  dsimp only
  -- The value has the type that was written, so that looking at it stops nothing.
  cases type' with
  | none =>
    rcases hhint with rfl | ⟨rfl, _, _, _, _, hnone⟩
    · exact hdeclare _ _ hl
    · cases hnone
  | some u =>
    rcases hhint.type_eq hv with rfl | ⟨rfl, rfl⟩
    · dsimp only
      by_cases hu : v.type ≠ u
      · rw [if_pos hu]
        exact Coupled.seq (.throw _) (fun _ => hdeclare) _ _ hl
      · rw [if_neg hu]
        exact hdeclare _ _ hl
    · dsimp only
      rw [if_neg (fun hne => hne rfl)]
      exact hdeclare _ _ hl

theorem alike_assign {name : Bytes} {value : Expr} {span : Span}
    (h : Always b (a.Fits b) (n + 1) (.stmt (.assign name value span)) m) (hm : a.bodies.Rel m m') :
    Alike a.bodies Eq (stmt b (n + 1) (.assign name value span) m)
      (stmt b (n + 1) (.assign name value span) m') := by
  rw [stmt]
  refine alike_seq (coupled_tick hb span _ _ hm) fun _ k k' htick hk => ?_
  refine alike_bind (coupled_slot name _ _ hk) fun o o' l l' hget ho hl => ?_
  cases hget
  rw [ho]
  cases hs : k.slot? name with
  | none => exact Coupled.throw _ _ _ hl
  | some slot =>
    refine alike_seq (ih.eval (h.part (.assignValue htick hs)) (.inl rfl) hl)
      fun v p p' _ hp => ?_
    have hassign : Coupled a.bodies Eq (do modify (Machine.assign name v); return Flow.next)
        (do modify (Machine.assign name v); return Flow.next) :=
      (coupled_assign name v).seq fun _ => .pure rfl
    exact Coupled.branch (Coupled.seq (.throw _) fun _ => hassign) hassign _ _ hp

theorem alike_assignAt {name : Bytes} {place value : Expr} {span : Span}
    (h : Always b (a.Fits b) (n + 1) (.stmt (.assignAt name place value span)) m)
    (hm : a.bodies.Rel m m') :
    Alike a.bodies Eq (stmt b (n + 1) (.assignAt name place value span) m)
      (stmt b (n + 1) (.assignAt name place value span) m') := by
  rw [stmt]
  refine alike_seq (coupled_tick hb span _ _ hm) fun _ k k' htick hk => ?_
  refine alike_bind (coupled_slot name _ _ hk) fun o o' l l' hget ho hl => ?_
  cases hget
  rw [ho]
  cases hs : k.slot? name with
  | none => exact Coupled.throw _ _ _ hl
  | some slot =>
    obtain ⟨type, held⟩ := slot
    cases held with
    | int _ | str _ | bool _ => exact Coupled.throw _ _ _ hl
    | vec elem items =>
      refine alike_seq (ih.eval (h.part (.assignPlace htick hs)) (.inl rfl) hl)
        fun i p p' hi hp => ?_
      cases i with
      | str _ | bool _ | vec _ _ => exact Coupled.throw _ _ _ hp
      | int i =>
        refine alike_seq (ih.eval (h.part (.assignItem htick hs hi)) (.inl rfl) hp)
          fun v q q' _ hq => ?_
        refine alike_seq (Coupled.setItem place value elem items i v _ _ hq)
          fun changed r r' _ hr => ?_
        exact Coupled.seq (coupled_assign name changed) (fun _ => .pure rfl) _ _ hr

theorem alike_when {cond : Expr} {body body' : List Stmt} {bodySpan span : Span}
    (h : Always b (a.Fits b) (n + 1) (.stmt (.when cond body bodySpan span)) m)
    (hbody : List.Forall₂ a.Writes body body') (hm : a.bodies.Rel m m') :
    Alike a.bodies Eq (stmt b (n + 1) (.when cond body bodySpan span) m)
      (stmt b (n + 1) (.when cond body' bodySpan span) m') := by
  rw [stmt, stmt]
  refine alike_seq (coupled_tick hb span _ _ hm) fun _ k k' htick hk => ?_
  refine alike_seq (ih.eval (h.part (.whenCond htick)) (.inl rfl) hk) fun v l l' hv hl => ?_
  cases v with
  | bool t =>
    cases t with
    | true => exact ih.block (h.part (.whenBody htick hv)) hbody hl
    | false => exact Coupled.pure rfl _ _ hl
  | int _ | str _ | vec _ _ => exact Coupled.throw _ _ _ hl

theorem alike_ifElse {cond : Expr} {body body' other other' : List Stmt}
    {bodySpan otherSpan span : Span}
    (h : Always b (a.Fits b) (n + 1) (.stmt (.ifElse cond body bodySpan other otherSpan span)) m)
    (hbody : List.Forall₂ a.Writes body body') (hother : List.Forall₂ a.Writes other other')
    (hm : a.bodies.Rel m m') :
    Alike a.bodies Eq (stmt b (n + 1) (.ifElse cond body bodySpan other otherSpan span) m)
      (stmt b (n + 1) (.ifElse cond body' bodySpan other' otherSpan span) m') := by
  rw [stmt, stmt]
  refine alike_seq (coupled_tick hb span _ _ hm) fun _ k k' htick hk => ?_
  refine alike_seq (ih.eval (h.part (.ifCond htick)) (.inl rfl) hk) fun v l l' hv hl => ?_
  cases v with
  | bool t =>
    cases t with
    | true => exact ih.block (h.part (.ifBody htick hv)) hbody hl
    | false => exact ih.block (h.part (.ifOther htick hv)) hother hl
  | int _ | str _ | vec _ _ => exact Coupled.throw _ _ _ hl

theorem alike_loop {body body' : List Stmt} {bodySpan span : Span}
    (h : Always b (a.Fits b) (n + 1) (.stmt (.loop body bodySpan span)) m)
    (hbody : List.Forall₂ a.Writes body body') (hm : a.bodies.Rel m m') :
    Alike a.bodies Eq (stmt b (n + 1) (.loop body bodySpan span) m)
      (stmt b (n + 1) (.loop body' bodySpan span) m') := by
  rw [stmt, stmt]
  refine alike_seq (coupled_tick hb span _ _ hm) fun _ k k' htick hk => ?_
  exact ih.rounds (h.part (.loopRounds htick)) hbody hk

omit ih in
theorem alike_fn {name : Bytes} {params : List Param} {result : Option Ty}
    {body body' : List Stmt} {bodySpan span : Span} (hbody : List.Forall₂ a.Writes body body')
    (hm : a.bodies.Rel m m') :
    Alike a.bodies Eq (stmt b (n + 1) (.fn name params result body bodySpan span) m)
      (stmt b (n + 1) (.fn name params result body' bodySpan span) m') := by
  rw [stmt, stmt]
  refine alike_seq (coupled_tick hb span _ _ hm) fun _ k k' _ hk => ?_
  cases Builtin.ofName? name with
  | some f => exact Coupled.throw _ _ _ hk
  | none =>
    have hf : a.WritesIn ⟨params, result, body⟩ ⟨params, result, body'⟩ := ⟨rfl, rfl, hbody⟩
    exact Coupled.seq (coupled_define name hf) (fun _ => .pure rfl) _ _ hk

/-- A statement that nothing is written to. -/
theorem alike_same {s : Stmt} (h : Always b (a.Fits b) (n + 1) (.stmt s) m)
    (hm : a.bodies.Rel m m') : Alike a.bodies Eq (stmt b (n + 1) s m) (stmt b (n + 1) s m') := by
  cases s with
  | letVar name nameSpan type value span => exact alike_letVar ih hb h (fun _ _ => .inl rfl) hm
  | assign name value span => exact alike_assign ih hb h hm
  | assignAt name place value span => exact alike_assignAt ih hb h hm
  | when cond body bodySpan span => exact alike_when ih hb h (a.writes_all_same body) hm
  | ifElse cond body bodySpan other otherSpan span =>
    exact alike_ifElse ih hb h (a.writes_all_same body) (a.writes_all_same other) hm
  | loop body bodySpan span => exact alike_loop ih hb h (a.writes_all_same body) hm
  | fn name params result body bodySpan span => exact alike_fn hb (a.writes_all_same body) hm
  | call name nameSpan args callSpan span =>
    rw [stmt]
    refine alike_seq (coupled_tick hb span _ _ hm) fun _ k k' htick hk => ?_
    refine alike_seq (ih.call (h.part (.callStmt htick)) hk) fun _ l l' _ hl => ?_
    exact Coupled.pure rfl _ _ hl
  | stop span =>
    rw [stmt]
    refine alike_seq (coupled_tick hb span _ _ hm) fun _ k k' _ hk => ?_
    exact Coupled.pure rfl _ _ hk
  | ret value span =>
    cases value with
    | none =>
      rw [stmt]
      refine alike_seq (coupled_tick hb span _ _ hm) fun _ k k' _ hk => ?_
      exact Coupled.pure rfl _ _ hk
    | some value =>
      rw [stmt]
      refine alike_seq (coupled_tick hb span _ _ hm) fun _ k k' htick hk => ?_
      refine alike_seq (ih.eval (h.part (.retValue htick)) (.inl rfl) hk) fun v l l' _ hl => ?_
      exact Coupled.pure rfl _ _ hl
  | exit value span =>
    rw [stmt]
    refine alike_seq (coupled_tick hb span _ _ hm) fun _ k k' htick hk => ?_
    refine alike_seq (ih.eval (h.part (.exitValue htick)) (.inl rfl) hk) fun v l l' _ hl => ?_
    cases v with
    | int i => exact Coupled.throw _ _ _ hl
    | str _ | bool _ | vec _ _ => exact Coupled.throw _ _ _ hl

theorem alike_stmt {s s' : Stmt} (h : Always b (a.Fits b) (n + 1) (.stmt s) m) (hs : a.Writes s s')
    (hm : a.bodies.Rel m m') : Alike a.bodies Eq (stmt b (n + 1) s m) (stmt b (n + 1) s' m') := by
  cases hs with
  | same => exact alike_same ih hb h hm
  | here =>
    -- This is an execution of the declaration, whose value has the type that was written.
    refine alike_letVar ih hb h (fun k htick => .inr ⟨rfl, ?_⟩) hm
    obtain ⟨v, l, hends, htype⟩ := h.now rfl k htick
    obtain ⟨N, hN⟩ := hends.fuel
    exact ⟨N, v, l, hN N (Nat.le_refl N), congrArg some htype.symm⟩
  | when hbody => exact alike_when ih hb h hbody hm
  | ifElse hbody hother => exact alike_ifElse ih hb h hbody hother hm
  | loop hbody => exact alike_loop ih hb h hbody hm
  | fn hbody => exact alike_fn hb hbody hm

omit hb in
theorem alike_block {ss ss' : List Stmt} (h : Always b (a.Fits b) (n + 1) (.block ss) m)
    (hss : List.Forall₂ a.Writes ss ss') (hm : a.bodies.Rel m m') :
    Alike a.bodies Eq (block b (n + 1) ss m) (block b (n + 1) ss' m') := by
  cases hss with
  | nil =>
    rw [block]
    exact Coupled.pure rfl _ _ hm
  | cons hs hrest =>
    rw [block, block]
    refine alike_seq (ih.stmt (h.part .firstStmt) hs hm) fun flow k k' hflow hk => ?_
    cases flow with
    | next => exact ih.block (h.part (.otherStmts hflow)) hrest hk
    | leave | ret v => exact Coupled.pure rfl _ _ hk

theorem alike_rounds {body body' : List Stmt} {span : Span}
    (h : Always b (a.Fits b) (n + 1) (.rounds body span) m)
    (hbody : List.Forall₂ a.Writes body body') (hm : a.bodies.Rel m m') :
    Alike a.bodies Eq (rounds b (n + 1) body span m) (rounds b (n + 1) body' span m') := by
  rw [rounds, rounds]
  refine alike_seq (ih.block (h.part .roundBody) hbody hm) fun flow k k' hflow hk => ?_
  cases flow with
  | leave | ret v => exact Coupled.pure rfl _ _ hk
  | next =>
    refine alike_seq (coupled_tick hb span _ _ hk) fun _ l l' htick hl => ?_
    exact ih.rounds (h.part (.nextRound hflow htick)) hbody hl

end Step

theorem alikeAt (a : Annotation) {b : Budget} (hb : b.IgnoresFunctions) (n : Nat) :
    a.AlikeAt b n := by
  induction n with
  | zero =>
    -- Without fuel both give up at once.
    constructor
    · intro hint hint' e m m' _ _ hm; rw [eval_zero, eval_zero]; exact Coupled.throw _ _ _ hm
    · intro hint hint' es m m' _ _ hm
      rw [evalItems_zero, evalItems_zero]
      exact Coupled.throw _ _ _ hm
    · intro hints es m m' _ hm; rw [evalArgs_zero]; exact Coupled.throw _ _ _ hm
    · intro wanted name nameSpan args span m m' _ hm
      rw [call_zero]
      exact Coupled.throw _ _ _ hm
    · intro s s' m m' _ _ hm; rw [stmt_zero, stmt_zero]; exact Coupled.throw _ _ _ hm
    · intro ss ss' m m' _ _ hm; rw [block_zero, block_zero]; exact Coupled.throw _ _ _ hm
    · intro body body' span m m' _ _ hm
      rw [rounds_zero, rounds_zero]
      exact Coupled.throw _ _ _ hm
  | succ n ih =>
    exact ⟨alike_eval ih, alike_evalItems ih, alike_evalArgs ih, alike_call ih, alike_stmt ih hb,
      alike_block ih, alike_rounds ih hb⟩

theorem exists_functions {r r' : EStateM.Result Halt Machine α} (h : Alike a.bodies Eq r r') :
    ∃ fs, a.WritesInAll (stateOf r).functions fs ∧ r' = onState (Machine.withFunctions fs) r := by
  cases r with
  | ok v k =>
    obtain ⟨_, _, rfl, rfl, fs, rfl, hfs⟩ := h
    exact ⟨fs, hfs, rfl⟩
  | error halt k =>
    obtain ⟨_, rfl, fs, rfl, hfs⟩ := h
    exact ⟨fs, hfs, rfl⟩

/-- Both programs run alike. -/
theorem alike_run (a : Annotation) {b : Budget} (hb : b.IgnoresFunctions) {n : Nat} {p p' : Program}
    (hp : List.Forall₂ a.Writes p p') {m : Machine} (h : Always b (a.Fits b) n (.block p) m) :
    Alike a.bodies Eq (Machine.run b n p m) (Machine.run b n p' m) := by
  have hm : a.bodies.Rel m m := ⟨m.functions, rfl, a.writesInAll_same m.functions⟩
  rw [Machine.run_eq, Machine.run_eq]
  cases b.cancelled m with
  | some reason => exact Coupled.throw _ _ _ hm
  | none =>
    have hblock := (a.alikeAt hb n).block h hp hm
    exact alike_seq hblock fun _ k k' _ hk => Coupled.pure rfl _ _ hk

end Annotation

open Exec in
/-- Hints never change a value that there is without them. A hint for its type leaves an evaluation
as it is, and under any hint there is either this value or none. So a declaration that is always
evaluated to a value of one type can be annotated with this type: the program runs as before, but
for the bodies of the functions it declares, and for places if the text is written anew. -/
theorem hints_never_change_inferred_values :
    (∀ (b : Budget) (n : Nat) (e : Expr) (m k : Machine) (v : Value),
      eval b n none e m = .ok v k →
      eval b n (some v.type) e m = .ok v k ∧
        ∀ hint n' v' k', eval b n' hint e m = .ok v' k' → v' = v ∧ k' = k) ∧
    ∀ (a : Annotation) (b : Budget), b.IgnoresFunctions → ∀ (p p' : Program) (m : Machine),
      List.Forall₂ a.Writes p p' → ∀ n, Task.Always b (a.Fits b) n (.block p) m →
      ∃ fs, a.WritesInAll (stateOf (Machine.run b n p m)).functions fs ∧
        Machine.run b n p' m = onState (Machine.withFunctions fs) (Machine.run b n p m) ∧
        ∀ p'', Stmt.allBare p'' = Stmt.allBare p' →
          movedBy Span.erase (Machine.run b n p'' m) =
            movedBy Span.erase (onState (Machine.withFunctions fs) (Machine.run b n p m)) := by
  constructor
  · intro b n e m k v h
    refine ⟨(eval_hinted h (some v.type)).same (e.not_misled_own v), fun hint n' v' k' h' => ?_⟩
    have hinted := eval_hinted h hint
    by_cases hmisled : e.Misled hint v
    · -- A misled evaluation is refused, whatever the fuel, so that there is no value at all.
      obtain ⟨want, got, span, l, hrefused⟩ := hinted.misled hmisled
      have hunique := (Expr.endsIn_of_eq h' rfl).unique (Expr.endsIn_of_eq hrefused rfl)
      cases hunique
    · have hsame := hinted.same hmisled
      have hunique := (Expr.endsIn_of_eq h' rfl).unique (Expr.endsIn_of_eq hsame rfl)
      cases hunique
      exact ⟨rfl, rfl⟩
  · intro a b hb p p' m hp n hfits
    obtain ⟨fs, hwrites, hrun⟩ := Annotation.exists_functions (a.alike_run hb hp hfits)
    refine ⟨fs, hwrites, hrun, fun p'' hbare => ?_⟩
    rw [← hrun]
    exact Machine.run_of_bare_eq hbare hb.blind n m

/-- A function that declares `[[1], []]` and prints it, with and without the type. -/
theorem nested_literal_can_be_annotated :
    let value : Expr := .vec [.vec [.int 1 .origin] .origin, .vec [] .origin] .origin
    let v : Value := .vec (.vecOf .int) [.vec .int [.int 1], .vec .int []]
    let a : Annotation := ⟨utf8 "rows", .origin, value, .origin, v.type⟩
    let print : Stmt :=
      .call (utf8 "print") .origin [.ident (utf8 "rows") .origin] .origin .origin
    let program (s : Stmt) : Program := [.fn (utf8 "show") [] none [s, print] .origin .origin,
      .call (utf8 "show") .origin [] .origin .origin]
    Exec.eval {} 6 none value {} = .ok v {} ∧ Exec.eval {} 6 (some v.type) value {} = .ok v {} ∧
      (∀ n, Task.Always {} (a.Fits {}) n (.block (program a.plain)) {}) ∧
      (stateOf (Machine.run {} 20 (program a.typed) {})).output.text = utf8 "[[1], []]" ∧
      ∃ fs, Machine.run {} 20 (program a.typed) {} =
        onState (Machine.withFunctions fs) (Machine.run {} 20 (program a.plain) {}) := by
  intro value v a print program
  obtain ⟨hinferred, hannotated⟩ := hints_never_change_inferred_values
  have heval (k : Machine) : Exec.eval {} 6 none value k = .ok v k := rfl
  have hfits : ∀ n, Task.Always {} (a.Fits {}) n (.block (program a.plain)) {} :=
    fun n => .of_forall (fun t m _ k _ => ⟨v, k, Expr.endsIn_of_eq (heval k) rfl, rfl⟩) n _ _
  have hwrites : List.Forall₂ a.Writes (program a.plain) (program a.typed) :=
    .cons (.fn (.cons .here (.cons (.same print) .nil))) (.cons (.same _) .nil)
  obtain ⟨fs, -, hrun, -⟩ := hannotated a {} (fun _ _ => rfl) _ _ {} hwrites 20 (hfits 20)
  exact ⟨heval {}, (hinferred {} 6 value {} {} v (heval {})).1, hfits, by decide +kernel, fs, hrun⟩

end Scriptlet
