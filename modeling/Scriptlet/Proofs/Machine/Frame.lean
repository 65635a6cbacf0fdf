import Scriptlet.Machine.Execution
import Scriptlet.Proofs.Ends

/-!
# Frame: what a run leaves alone

A variable keeps the type it was declared with. Evaluating an expression changes no recorded type
at all and leaves the variables of the running function as they are, whatever functions it calls;
a statement changes recorded types only through the declarations written in it, and only at its own
level. All of this holds however the evaluation ends.
-/

namespace Scriptlet

namespace Scope

/-- The names of a scope with the types they were declared with. -/
def types (s : Scope) : List (Bytes × Ty) := s.map fun b => (b.1, b.2.type)

/-- The type a name was declared with. -/
def typeOf? (s : Scope) (name : Bytes) : Option Ty := (s.find? name).map Slot.type

theorem types_assign (name : Bytes) (v : Value) (s : Scope) :
    (s.assign name v).types = s.types := by
  induction s with
  | nil => rfl
  | cons b rest ih =>
    by_cases h : b.1 = name
    · simp [assign, types, h]
    · simp only [types] at ih
      simp [assign, types, h, ih]

theorem typeOf?_eq_lookup (s : Scope) (name : Bytes) : s.typeOf? name = s.types.lookup name := by
  induction s with
  | nil => rfl
  | cons b rest ih =>
    by_cases h : b.1 = name
    · simp [typeOf?, find?, types, h]
    · have hne : (name == b.1) = false := by simpa using fun he => h he.symm
      simp only [typeOf?, types] at ih
      simp [typeOf?, find?, types, h, List.lookup_cons, hne, ih]

theorem typeOf?_congr {s t : Scope} (h : s.types = t.types) (name : Bytes) :
    s.typeOf? name = t.typeOf? name := by
  rw [typeOf?_eq_lookup, typeOf?_eq_lookup, h]

theorem typeOf?_declare_of_ne {name other : Bytes} (h : other ≠ name) (slot : Slot) (s : Scope) :
    (s.declare name slot).typeOf? other = s.typeOf? other := by
  rw [typeOf?, typeOf?, find?_declare_of_ne h]

end Scope

mutual

/-- The names that a statement declares at its own level: those of its blocks count, those of the
functions it declares do not. -/
def Stmt.lets : Stmt → List Bytes
  | .letVar name _ _ _ _ => [name]
  | .when _ body _ _ => Stmt.allLets body
  | .ifElse _ body _ other _ _ => Stmt.allLets body ++ Stmt.allLets other
  | .loop body _ _ => Stmt.allLets body
  | .assign .. | .assignAt .. | .call .. | .stop .. | .ret .. | .exit .. | .fn .. => []

/-- The names that several statements declare at their own level. -/
def Stmt.allLets : List Stmt → List Bytes
  | [] => []
  | s :: rest => s.lets ++ Stmt.allLets rest

end

namespace Machine

/-- The variables of the level being run: the function's own, or else the global ones. -/
def level (m : Machine) : Scope := m.locals.getD m.globals

/-- Between `m` and `n` the running function's variables did not change, the global ones kept their
names and types, and as many calls are in progress. -/
structure SameTypes (m n : Machine) : Prop where
  locals : n.locals = m.locals
  globals : n.globals.types = m.globals.types
  depth : n.depth = m.depth

/-- Between `m` and `n` only the given names were declared anew, at the level being run. -/
structure TypesBut (names : List Bytes) (m n : Machine) : Prop where
  inCall : n.locals.isSome = m.locals.isSome
  globals : m.locals.isSome → n.globals.types = m.globals.types
  level : ∀ x, x ∉ names → n.level.typeOf? x = m.level.typeOf? x
  depth : n.depth = m.depth

namespace SameTypes

theorem refl (m : Machine) : SameTypes m m := ⟨rfl, rfl, rfl⟩

theorem trans {m n o : Machine} (h : SameTypes m n) (h' : SameTypes n o) : SameTypes m o :=
  ⟨h'.locals.trans h.locals, h'.globals.trans h.globals, h'.depth.trans h.depth⟩

theorem typesBut {m n : Machine} (h : SameTypes m n) (names : List Bytes) :
    TypesBut names m n := by
  refine ⟨by rw [h.locals], fun _ => h.globals, fun x _ => ?_, h.depth⟩
  unfold Machine.level
  rw [h.locals]
  cases m.locals with
  | none => exact Scope.typeOf?_congr h.globals x
  | some own => rfl

/-- A name that had a slot still has one, with the same recorded type. -/
theorem typeOf_slot? {m n : Machine} (h : SameTypes m n) (name : Bytes) :
    (n.slot? name).map Slot.type = (m.slot? name).map Slot.type := by
  have hg : (n.globals.find? name).map Slot.type = (m.globals.find? name).map Slot.type :=
    Scope.typeOf?_congr h.globals name
  unfold slot?
  rw [h.locals]
  cases m.locals with
  | none => exact hg
  | some own =>
    simp only
    cases own.find? name with
    | none => exact hg
    | some slot => rfl

end SameTypes

namespace TypesBut

variable {names : List Bytes} {m n o : Machine}

theorem trans (h : TypesBut names m n) (h' : TypesBut names n o) : TypesBut names m o where
  inCall := h'.inCall.trans h.inCall
  globals hm := (h'.globals (by rw [h.inCall]; exact hm)).trans (h.globals hm)
  level x hx := (h'.level x hx).trans (h.level x hx)
  depth := h'.depth.trans h.depth

end TypesBut

/-- An assignment keeps every recorded type. -/
theorem typesBut_assign (names : List Bytes) (name : Bytes) (v : Value) (m : Machine) :
    TypesBut names m (m.assign name v) := by
  unfold assign
  split
  · apply SameTypes.typesBut
    exact ⟨rfl, Scope.types_assign name v m.globals, rfl⟩
  · rename_i own hm
    split
    · refine ⟨by simp [hm], fun _ => rfl, fun x _ => ?_, rfl⟩
      simp only [level, hm, Option.getD_some]
      exact Scope.typeOf?_congr (Scope.types_assign name v own) x
    · apply SameTypes.typesBut
      exact ⟨rfl, Scope.types_assign name v m.globals, rfl⟩

/-- A declaration changes the recorded type of its own name at most. -/
theorem typesBut_declare {names : List Bytes} {name : Bytes} (h : name ∈ names) (v : Value)
    (m : Machine) : TypesBut names m (m.declare name v) := by
  unfold declare
  cases hm : m.locals with
  | none =>
    refine ⟨by rw [hm], fun hs => by simp [hm] at hs, fun x hx => ?_, rfl⟩
    have hne : x ≠ name := fun he => hx (he ▸ h)
    simp only [level, hm, Option.getD_none]
    exact Scope.typeOf?_declare_of_ne hne _ _
  | some own =>
    refine ⟨by rw [hm]; rfl, fun _ => rfl, fun x hx => ?_, rfl⟩
    have hne : x ≠ name := fun he => hx (he ▸ h)
    simp only [level, hm, Option.getD_some]
    exact Scope.typeOf?_declare_of_ne hne _ _

end Machine

/-! ## Relations that every step of an action keeps -/

namespace Exec

open Machine

variable {α β : Type} {R : Machine → Machine → Prop}

/-- However the action ends, it leaves a machine that stands in `R` to the one it began with. -/
def Leaves (R : Machine → Machine → Prop) (x : Exec α) : Prop :=
  ∀ m, Ends (x m) (fun _ n => R m n) (fun _ n => R m n)

namespace Leaves

theorem mono {R' : Machine → Machine → Prop} {x : Exec α} (h : Leaves R x)
    (hR : ∀ m n, R m n → R' m n) : Leaves R' x :=
  fun m => (h m).mono (fun _ n => hR m n) (fun _ n => hR m n)

theorem bind (trans : ∀ m n o, R m n → R n o → R m o) {x : Exec α} {f : α → Exec β}
    (hx : Leaves R x) (hf : ∀ a, Leaves R (f a)) : Leaves R (x >>= f) := by
  intro m
  rw [Ends.bind_iff]
  refine (hx m).mono (fun a n hn => ?_) (fun _ _ hn => hn)
  exact (hf a n).mono (fun _ o ho => trans m n o hn ho) (fun _ o ho => trans m n o hn ho)

theorem modify {f : Machine → Machine} (h : ∀ m, R m (f m)) :
    Leaves R (modify f : Exec PUnit) := fun m => h m

end Leaves

/-! ## Expressions keep every recorded type -/

/-- The action changes no recorded type and no variable of the running function. -/
abbrev KeepsTypes (x : Exec α) : Prop := Leaves SameTypes x

/-- The action declares at most the given names, at the level being run. -/
abbrev DeclaresOnly (names : List Bytes) (x : Exec α) : Prop := Leaves (TypesBut names) x

theorem KeepsTypes.declaresOnly {x : Exec α} (h : KeepsTypes x) (names : List Bytes) :
    DeclaresOnly names x := h.mono fun _ _ hn => hn.typesBut names

theorem DeclaresOnly.bind {names : List Bytes} {x : Exec α} {f : α → Exec β}
    (hx : DeclaresOnly names x) (hf : ∀ a, DeclaresOnly names (f a)) :
    DeclaresOnly names (x >>= f) :=
  Leaves.bind (R := TypesBut names) (fun _ _ _ h h' => h.trans h') hx hf

namespace KeepsTypes

theorem bind {x : Exec α} {f : α → Exec β} (hx : KeepsTypes x) (hf : ∀ a, KeepsTypes (f a)) :
    KeepsTypes (x >>= f) :=
  Leaves.bind (R := SameTypes) (fun _ _ _ h h' => h.trans h') hx hf

theorem pure (a : α) : KeepsTypes (pure a : Exec α) := fun m => SameTypes.refl m

theorem throw (h : Halt) : KeepsTypes (throw h : Exec α) := fun m => SameTypes.refl m

theorem fail (fault : Fault) (span : Span) : KeepsTypes (fail fault span : Exec α) := throw _

theorem get : KeepsTypes (get : Exec Machine) := fun m => SameTypes.refl m

end KeepsTypes

theorem keepsTypes_tick (budget : Budget) (span : Span) : KeepsTypes (tick budget span) := by
  refine KeepsTypes.bind (Leaves.modify fun m => ⟨rfl, rfl, rfl⟩) fun _ => ?_
  refine KeepsTypes.bind KeepsTypes.get fun m => ?_
  split
  · exact KeepsTypes.fail _ _
  · split
    · split
      · exact KeepsTypes.fail _ _
      · exact KeepsTypes.pure ()
    · exact KeepsTypes.pure ()

theorem keepsTypes_write (span : Span) (text : Bytes) : KeepsTypes (write span text) := by
  refine KeepsTypes.bind KeepsTypes.get fun m => ?_
  refine KeepsTypes.bind (Leaves.modify fun m => ⟨rfl, rfl, rfl⟩) fun _ => ?_
  split
  · exact KeepsTypes.pure ()
  · exact KeepsTypes.fail _ _

theorem keepsTypes_readLine (span : Span) : KeepsTypes (readLine span) := by
  refine KeepsTypes.bind KeepsTypes.get fun m => ?_
  refine KeepsTypes.bind (Leaves.modify fun m => ⟨rfl, rfl, rfl⟩) fun _ => ?_
  split
  · exact KeepsTypes.pure _
  · exact KeepsTypes.fail _ _

/-- Within a call only the callee's variables can be declared, and they are gone afterwards. The body
ends with as many calls in progress as it began with, so counting down after it makes up for counting
up before it. -/
theorem keepsTypes_inCall {names : List Bytes} {body : Exec α} (h : DeclaresOnly names body)
    (own : Scope) : KeepsTypes (inCall own body) := by
  intro m
  have hb := h { m with locals := some own, depth := m.depth + 1 }
  unfold inCall
  cases hr : body { m with locals := some own, depth := m.depth + 1 } with
  | ok a n =>
    have hn := hb.of_ok hr
    exact ⟨rfl, hn.globals rfl, congrArg (· - 1) hn.depth⟩
  | error e n =>
    have hn := hb.of_error hr
    exact ⟨rfl, hn.globals rfl, congrArg (· - 1) hn.depth⟩

theorem keepsTypes_bindParams (params : List Param) (exprs : List Expr) (values : List Value)
    (own : Scope) : KeepsTypes (bindParams params exprs values own) := by
  fun_induction bindParams params exprs values own with
  | case1 => exact KeepsTypes.pure _
  | case2 p params e exprs v values own h ih => exact ih
  | case3 p params e exprs v values own h => exact KeepsTypes.fail _ _
  | case4 => exact KeepsTypes.throw _

theorem keepsTypes_operate (op : BinOp) (left right : Expr) (a b : Value) :
    KeepsTypes (operate op left right a b) := by
  unfold operate
  split
  · exact KeepsTypes.pure _
  · exact KeepsTypes.fail _ _
  · exact KeepsTypes.fail _ _

theorem keepsTypes_itemAt (at_ : Expr) (items : List Value) (i : Int64) :
    KeepsTypes (itemAt at_ items i) := by
  unfold itemAt
  split
  · exact KeepsTypes.fail _ _
  · split
    · exact KeepsTypes.fail _ _
    · split
      · exact KeepsTypes.pure _
      · exact KeepsTypes.throw _

theorem keepsTypes_setItem (at_ from_ : Expr) (elem : Ty) (items : List Value) (i : Int64)
    (v : Value) : KeepsTypes (setItem at_ from_ elem items i v) := by
  unfold setItem
  split
  · exact KeepsTypes.fail _ _
  · split
    · exact KeepsTypes.fail _ _
    · split
      · exact KeepsTypes.pure _
      · split
        · exact KeepsTypes.pure _
        · exact KeepsTypes.throw _

theorem keepsTypes_returned (wanted : Bool) (name : Bytes) (span : Span) (result : Option Ty)
    (v : Option Value) : KeepsTypes (returned wanted name span result v) := by
  unfold returned
  split
  · split
    · exact KeepsTypes.fail _ _
    · exact KeepsTypes.pure _
  · split
    · exact KeepsTypes.throw _
    · split
      · exact KeepsTypes.pure _
      · exact KeepsTypes.fail _ _

theorem keepsTypes_callee (wanted : Bool) (name : Bytes) (nameSpan span : Span) (argc : Nat) :
    KeepsTypes (callee wanted name nameSpan span argc) := by
  refine KeepsTypes.bind KeepsTypes.get fun m => ?_
  split
  · exact KeepsTypes.fail _ _
  · split
    · exact KeepsTypes.fail _ _
    · split
      · exact KeepsTypes.fail _ _
      · exact KeepsTypes.pure _

theorem keepsTypes_checkDepth (budget : Budget) (span : Span) :
    KeepsTypes (checkDepth budget span) := by
  refine KeepsTypes.bind KeepsTypes.get fun m => ?_
  split
  · exact KeepsTypes.fail _ _
  · exact KeepsTypes.pure _

theorem keepsTypes_apply (f : Builtin) (span argSpan : Span) (args : List Value) :
    KeepsTypes (f.apply span argSpan args) := by
  unfold Builtin.apply
  split
  · exact KeepsTypes.bind (keepsTypes_write _ _) fun _ => KeepsTypes.pure _
  · exact KeepsTypes.bind (keepsTypes_write _ _) fun _ => KeepsTypes.pure _
  · exact KeepsTypes.bind (keepsTypes_readLine _) fun _ => KeepsTypes.pure _
  · split
    · exact KeepsTypes.pure _
    · exact KeepsTypes.fail _ _
  · split
    · exact KeepsTypes.pure _
    · exact KeepsTypes.fail _ _
  · exact KeepsTypes.pure _
  · split
    · exact KeepsTypes.pure _
    · exact KeepsTypes.fail _ _
  · exact KeepsTypes.throw _

theorem keepsTypes_callBuiltin (wanted : Bool) (f : Builtin) (name : Bytes) (span : Span)
    (args : List Expr) (values : List Value) :
    KeepsTypes (callBuiltin wanted f name span args values) := by
  have happly : KeepsTypes (do
      let v ← f.apply span ((args.head?.map Expr.span).getD span) values
      if wanted && v.isNone then fail (.noValue name) span else return v) := by
    refine KeepsTypes.bind (keepsTypes_apply _ _ _ _) fun v => ?_
    split
    · exact KeepsTypes.fail _ _
    · exact KeepsTypes.pure _
  unfold callBuiltin
  split
  · split
    · exact KeepsTypes.bind (KeepsTypes.fail _ _) fun _ => happly
    · exact happly
  · exact happly

/-- What evaluation with a given amount of fuel leaves alone. -/
structure FrameAt (budget : Budget) (n : Nat) : Prop where
  eval : ∀ hint e, KeepsTypes (eval budget n hint e)
  items : ∀ t es, KeepsTypes (evalItems budget n t es)
  args : ∀ hints es, KeepsTypes (evalArgs budget n hints es)
  call : ∀ wanted name nameSpan args span,
    KeepsTypes (call budget n wanted name nameSpan args span)
  stmt : ∀ s names, s.lets ⊆ names → DeclaresOnly names (stmt budget n s)
  block : ∀ ss names, Stmt.allLets ss ⊆ names → DeclaresOnly names (block budget n ss)
  rounds : ∀ body span names, Stmt.allLets body ⊆ names →
    DeclaresOnly names (rounds budget n body span)

section Step

variable {budget : Budget} {n : Nat} (ih : FrameAt budget n)
include ih

theorem keepsTypes_eval (hint : Option Ty) (e : Expr) :
    KeepsTypes (eval budget (n + 1) hint e) := by
  cases e with
  | int k span => rw [Exec.eval]; exact KeepsTypes.pure _
  | str s span => rw [Exec.eval]; exact KeepsTypes.pure _
  | bool b span => rw [Exec.eval]; exact KeepsTypes.pure _
  | ident name span =>
    rw [Exec.eval]
    refine KeepsTypes.bind KeepsTypes.get fun m => ?_
    split
    · exact KeepsTypes.pure _
    · exact KeepsTypes.fail _ _
  | vec elems span =>
    rw [Exec.eval]
    refine KeepsTypes.bind (ih.items _ _) fun r => ?_
    split
    · exact KeepsTypes.pure _
    · exact KeepsTypes.fail _ _
  | neg operand span =>
    rw [Exec.eval]
    refine KeepsTypes.bind (ih.eval _ _) fun v => ?_
    split
    · exact KeepsTypes.pure _
    · exact KeepsTypes.fail _ _
  | binary op left right span =>
    rw [Exec.eval]
    refine KeepsTypes.bind (ih.eval _ _) fun a => ?_
    refine KeepsTypes.bind (ih.eval _ _) fun b => ?_
    exact keepsTypes_operate _ _ _ _ _
  | call name nameSpan args span =>
    rw [Exec.eval]
    refine KeepsTypes.bind (ih.call _ _ _ _ _) fun v => ?_
    split
    · exact KeepsTypes.pure _
    · exact KeepsTypes.throw _
  | index target place span =>
    rw [Exec.eval]
    refine KeepsTypes.bind (ih.eval _ _) fun v => ?_
    split
    · refine KeepsTypes.bind (ih.eval _ _) fun i => ?_
      split
      · exact keepsTypes_itemAt _ _ _
      · exact KeepsTypes.fail _ _
    · exact KeepsTypes.fail _ _

theorem keepsTypes_evalItems (t : Option Ty) (es : List Expr) :
    KeepsTypes (evalItems budget (n + 1) t es) := by
  cases es with
  | nil => rw [Exec.evalItems]; exact KeepsTypes.pure _
  | cons e rest =>
    rw [Exec.evalItems]
    refine KeepsTypes.bind (ih.eval _ _) fun v => ?_
    simp only
    split
    · exact KeepsTypes.fail _ _
    · exact KeepsTypes.bind (ih.items _ _) fun _ => KeepsTypes.pure _

theorem keepsTypes_evalArgs (hints : List Ty) (es : List Expr) :
    KeepsTypes (evalArgs budget (n + 1) hints es) := by
  cases es with
  | nil => rw [Exec.evalArgs]; exact KeepsTypes.pure _
  | cons e rest =>
    rw [Exec.evalArgs]
    refine KeepsTypes.bind (ih.eval _ _) fun v => ?_
    exact KeepsTypes.bind (ih.args _ _) fun _ => KeepsTypes.pure _

theorem keepsTypes_call (wanted : Bool) (name : Bytes) (nameSpan : Span) (args : List Expr)
    (span : Span) : KeepsTypes (call budget (n + 1) wanted name nameSpan args span) := by
  rw [Exec.call]
  split
  · exact KeepsTypes.bind (ih.args _ _) fun _ => keepsTypes_callBuiltin _ _ _ _ _ _
  · refine KeepsTypes.bind (keepsTypes_callee _ _ _ _ _) fun f => ?_
    refine KeepsTypes.bind (ih.args _ _) fun values => ?_
    refine KeepsTypes.bind (keepsTypes_bindParams _ _ _ _) fun own => ?_
    refine KeepsTypes.bind (keepsTypes_checkDepth _ _) fun _ => ?_
    -- What the body declares goes with its own scope, so the caller's types stay.
    have hbody := ih.block f.body (Stmt.allLets f.body) (List.Subset.refl _)
    refine KeepsTypes.bind (keepsTypes_inCall hbody own) fun flow => ?_
    split <;> exact keepsTypes_returned _ _ _ _ _

/-! ## Statements declare only what is written in them -/

theorem declaresOnly_stmt (s : Stmt) (names : List Bytes) (hs : s.lets ⊆ names) :
    DeclaresOnly names (stmt budget (n + 1) s) := by
  have tick (span : Span) : DeclaresOnly names (tick budget span) :=
    (keepsTypes_tick budget span).declaresOnly names
  have eval (hint : Option Ty) (e : Expr) : DeclaresOnly names (Exec.eval budget n hint e) :=
    (ih.eval hint e).declaresOnly names
  have fail {α : Type} (fault : Fault) (span : Span) :
      DeclaresOnly names (fail fault span : Exec α) := (KeepsTypes.fail fault span).declaresOnly _
  have pure {α : Type} (a : α) : DeclaresOnly names (pure a : Exec α) :=
    (KeepsTypes.pure a).declaresOnly _
  have get : DeclaresOnly names (get : Exec Machine) := KeepsTypes.get.declaresOnly _
  cases s with
  | letVar name nameSpan type value span =>
    have hmem : name ∈ names := hs (by simp [Stmt.lets])
    have declare (v : Value) :
        DeclaresOnly names (do modify (Machine.declare name v); return Flow.next) :=
      DeclaresOnly.bind (Leaves.modify fun m => typesBut_declare hmem v m) fun _ => pure _
    rw [Exec.stmt]
    refine DeclaresOnly.bind (tick _) fun _ => DeclaresOnly.bind (eval _ _) fun v => ?_
    simp only
    split
    · split
      · exact DeclaresOnly.bind (fail _ _) fun _ => declare v
      · exact declare v
    · exact declare v
  | assign name value span =>
    -- An assignment changes the value of a slot and never its type, checked or not.
    have assign (v : Value) :
        DeclaresOnly names (do modify (Machine.assign name v); return Flow.next) :=
      DeclaresOnly.bind (Leaves.modify fun m => typesBut_assign names name v m) fun _ => pure _
    rw [Exec.stmt]
    refine DeclaresOnly.bind (tick _) fun _ => DeclaresOnly.bind get fun m => ?_
    split
    · exact fail _ _
    · refine DeclaresOnly.bind (eval _ _) fun v => ?_
      simp only
      split
      · exact DeclaresOnly.bind (fail _ _) fun _ => assign v
      · exact assign v
  | assignAt name place value span =>
    rw [Exec.stmt]
    refine DeclaresOnly.bind (tick _) fun _ => DeclaresOnly.bind get fun m => ?_
    split
    · exact fail _ _
    · refine DeclaresOnly.bind (eval _ _) fun i => ?_
      split
      · refine DeclaresOnly.bind (eval _ _) fun v => ?_
        refine DeclaresOnly.bind ((keepsTypes_setItem _ _ _ _ _ _).declaresOnly _) fun changed => ?_
        exact DeclaresOnly.bind (Leaves.modify fun m => typesBut_assign names name changed m)
          fun _ => pure _
      · exact fail _ _
    · exact fail _ _
  | call name nameSpan args callSpan span =>
    rw [Exec.stmt]
    refine DeclaresOnly.bind (tick _) fun _ => ?_
    exact DeclaresOnly.bind ((ih.call _ _ _ _ _).declaresOnly _) fun _ => pure _
  | when cond body bodySpan span =>
    rw [Exec.stmt]
    refine DeclaresOnly.bind (tick _) fun _ => DeclaresOnly.bind (eval _ _) fun v => ?_
    split
    · exact ih.block body names hs
    · exact pure _
    · exact fail _ _
  | ifElse cond body bodySpan other otherSpan span =>
    rw [Exec.stmt]
    refine DeclaresOnly.bind (tick _) fun _ => DeclaresOnly.bind (eval _ _) fun v => ?_
    split
    · exact ih.block body names fun x hx => hs (List.mem_append_left _ hx)
    · exact ih.block other names fun x hx => hs (List.mem_append_right _ hx)
    · exact fail _ _
  | loop body bodySpan span =>
    rw [Exec.stmt]
    exact DeclaresOnly.bind (tick _) fun _ => ih.rounds body span names hs
  | stop span =>
    rw [Exec.stmt]
    exact DeclaresOnly.bind (tick _) fun _ => pure _
  | ret value span =>
    cases value with
    | none =>
      rw [Exec.stmt]
      exact DeclaresOnly.bind (tick _) fun _ => pure _
    | some value =>
      rw [Exec.stmt]
      exact DeclaresOnly.bind (tick _) fun _ => DeclaresOnly.bind (eval _ _) fun _ => pure _
  | exit value span =>
    rw [Exec.stmt]
    refine DeclaresOnly.bind (tick _) fun _ => DeclaresOnly.bind (eval _ _) fun v => ?_
    split
    · exact (KeepsTypes.throw _).declaresOnly _
    · exact fail _ _
  | fn name params result body bodySpan span =>
    rw [Exec.stmt]
    refine DeclaresOnly.bind (tick _) fun _ => ?_
    split
    · exact fail _ _
    · refine DeclaresOnly.bind (Leaves.modify fun m => ?_) fun _ => pure _
      apply SameTypes.typesBut
      exact ⟨rfl, rfl, rfl⟩

theorem declaresOnly_block (ss : List Stmt) (names : List Bytes) (hs : Stmt.allLets ss ⊆ names) :
    DeclaresOnly names (block budget (n + 1) ss) := by
  cases ss with
  | nil =>
    rw [Exec.block]
    exact (KeepsTypes.pure _).declaresOnly _
  | cons s rest =>
    rw [Exec.block]
    refine DeclaresOnly.bind (ih.stmt s names fun x hx => hs (List.mem_append_left _ hx))
      fun flow => ?_
    split
    · exact ih.block rest names fun x hx => hs (List.mem_append_right _ hx)
    · exact (KeepsTypes.pure _).declaresOnly _

theorem declaresOnly_rounds (body : List Stmt) (span : Span) (names : List Bytes)
    (hs : Stmt.allLets body ⊆ names) : DeclaresOnly names (rounds budget (n + 1) body span) := by
  rw [Exec.rounds]
  refine DeclaresOnly.bind (ih.block body names hs) fun flow => ?_
  split
  · exact (KeepsTypes.pure _).declaresOnly _
  · exact (KeepsTypes.pure _).declaresOnly _
  · refine DeclaresOnly.bind ((keepsTypes_tick budget span).declaresOnly names) fun _ => ?_
    exact ih.rounds body span names hs

end Step

/-- The frame holds for every amount of fuel, by induction on it. -/
theorem frameAt (budget : Budget) (n : Nat) : FrameAt budget n := by
  induction n with
  | zero =>
    -- Without fuel nothing is done at all.
    have idle {α : Type} {x : Exec α} (hx : x = throw .outOfFuel) : KeepsTypes x := by
      rw [hx]
      exact KeepsTypes.throw _
    constructor
    · intro hint e; exact idle (by rw [Exec.eval])
    · intro t es; exact idle (by rw [Exec.evalItems])
    · intro hints es; exact idle (by rw [Exec.evalArgs])
    · intro wanted name nameSpan args span; exact idle (by rw [Exec.call])
    · intro s names _; exact (idle (by rw [Exec.stmt])).declaresOnly names
    · intro ss names _; exact (idle (by rw [Exec.block])).declaresOnly names
    · intro body span names _; exact (idle (by rw [Exec.rounds])).declaresOnly names
  | succ n ih =>
    exact ⟨keepsTypes_eval ih, keepsTypes_evalItems ih, keepsTypes_evalArgs ih, keepsTypes_call ih,
      declaresOnly_stmt ih, declaresOnly_block ih, declaresOnly_rounds ih⟩

end Exec
end Scriptlet
