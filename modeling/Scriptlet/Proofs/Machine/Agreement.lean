import Scriptlet.Proofs.Machine.Frame
import Scriptlet.Proofs.Program.Respan
import Scriptlet.Proofs.Value.Typed

/-!
# Agreement: runs that are alike because their steps are

Two runs are compared by a relation between actions. If the relation respects the ways in which
actions are put together and holds of the few things a machine can do, it holds of the two runs as
wholes, where the second runs the same program at other places. What the relation says is left
open: that one run breaks off where the other goes on, that places make no difference, or, with
both runs the same, what every run keeps.

A pairing is about actions that leave names alone, a comparison about those that look them up but
count no steps and change no variables; a congruence is about all of them.
-/

namespace Scriptlet

/-- A fault of the program's own: neither of its text nor of what it may use up. -/
structure Fault.Own (fault : Fault) : Prop where
  text : fault.code ≠ .malformed
  budget : fault.code ≠ .limit

namespace BinOp

variable {a b : Value} {side : Side} {fault : Fault}

theorem own_of_reject {side' : Side} {need : Need} {got : Value}
    (h : reject side' need got = .error (side, fault)) : fault.Own := by
  cases h
  exact ⟨Code.noConfusion, Code.noConfusion⟩

theorem own_of_sum (h : sum a b = .error (side, fault)) : fault.Own := by
  unfold sum at h
  split at h
  · split at h
    · cases h
    · exact own_of_reject h
  · split at h
    · cases h
    · exact own_of_reject h
  · exact own_of_reject h

theorem own_of_arithmetic {g : Int64 → Int64 → Except (Side × Fault) Int64}
    (hg : ∀ x y, g x y = .error (side, fault) → fault.Own)
    (h : arithmetic g a b = .error (side, fault)) : fault.Own := by
  cases a with
  | int x =>
    cases b with
    | int y =>
      simp only [arithmetic] at h
      cases hxy : g x y with
      | ok n => rw [hxy] at h; cases h
      | error e => rw [hxy] at h; cases h; exact hg x y hxy
    | str _ | bool _ | vec _ _ => exact own_of_reject h
  | str _ | bool _ | vec _ _ => exact own_of_reject h

theorem own_of_comparison {accepts : Ordering → Bool}
    (h : comparison accepts a b = .error (side, fault)) : fault.Own := by
  unfold comparison at h
  split at h
  · cases h
  · exact own_of_reject h

/-- What an operator finds wrong is the program's own fault. -/
theorem own_of_apply {op : BinOp} (h : op.apply a b = .error (side, fault)) : fault.Own := by
  cases op with
  | add => exact own_of_sum h
  | sub | mul => exact own_of_arithmetic (fun x y hxy => by cases hxy) h
  | div =>
    refine own_of_arithmetic (fun x y hxy => ?_) h
    unfold quotient at hxy
    split at hxy
    · cases hxy; exact ⟨Code.noConfusion, Code.noConfusion⟩
    · cases hxy
  | pow =>
    refine own_of_arithmetic (fun x y hxy => ?_) h
    unfold exponential at hxy
    split at hxy
    · cases hxy; exact ⟨Code.noConfusion, Code.noConfusion⟩
    · cases hxy
  | eq | ne | gt | lt | ge | le => exact own_of_comparison h

end BinOp

/-- Names mean the same on both machines, but for the places in the functions declared. -/
structure Machine.SameNames (f : Span → Span) (m m' : Machine) : Prop where
  slot : ∀ name, m'.slot? name = m.slot? name
  function : ∀ name, m'.function? name = (m.function? name).map (Function.respan f)

namespace Exec

/-- A relation between actions, given one between their results, that respects sequence and holds
of what can be done without a look at variables, functions and steps. The second action stands at
the places that `f` gives. -/
structure Pairing (f : Span → Span) where
  Rel : ∀ {α β : Type}, (α → β → Prop) → Exec α → Exec β → Prop
  pure : ∀ {α β : Type} {P : α → β → Prop} {a : α} {b : β}, P a b → Rel P (pure a) (pure b)
  bind : ∀ {α β γ δ : Type} {P : α → β → Prop} {Q : γ → δ → Prop} {x : Exec α} {y : Exec β}
    {p : α → Exec γ} {q : β → Exec δ}, Rel P x y → (∀ a b, P a b → Rel Q (p a) (q b)) →
    Rel Q (x >>= p) (y >>= q)
  stuck : ∀ {α β : Type} {P : α → β → Prop}, Rel P (throw .stuck) (throw .stuck)
  fail : ∀ {α β : Type} {P : α → β → Prop} {fault : Fault}, fault.Own → ∀ span,
    Rel P (fail fault span) (fail fault (f span))
  write : ∀ span text, Rel Eq (write span text) (write (f span) text)
  readLine : ∀ span, Rel Eq (readLine span) (readLine (f span))

/-- A pairing of actions to which names mean the same: it holds of all that can be done without
counting steps or changing variables. -/
structure Comparison (f : Span → Span) extends Pairing f where
  look : Rel (Machine.SameNames f) get get

namespace Pairing

variable {f : Span → Span} (c : Pairing f) {α β γ δ : Type}

/-- After equal results the two actions go on with one value. -/
theorem seq {Q : γ → δ → Prop} {x y : Exec α} {p : α → Exec γ} {q : α → Exec δ}
    (hx : c.Rel Eq x y) (hp : ∀ a, c.Rel Q (p a) (q a)) : c.Rel Q (x >>= p) (y >>= q) := by
  refine c.bind hx fun a b hab => ?_
  subst hab
  exact hp a

theorem branch {P : α → β → Prop} {p : Prop} [Decidable p] {x x' : Exec α} {y y' : Exec β}
    (hx : c.Rel P x y) (hx' : c.Rel P x' y') :
    c.Rel P (if p then x else x') (if p then y else y') := by
  by_cases h : p
  · rw [if_pos h, if_pos h]
    exact hx
  · rw [if_neg h, if_neg h]
    exact hx'

theorem mismatch {P : α → β → Prop} (need : Need) (got : Value) (span : Span) :
    c.Rel P (Exec.mismatch need got span) (Exec.mismatch need got (f span)) :=
  c.fail ⟨Code.noConfusion, Code.noConfusion⟩ span

/-! ## Calls of builtins and functions, items and operators -/

theorem bindParams (params : List Param) (exprs : List Expr) (values : List Value) (own : Scope) :
    c.Rel Eq (Exec.bindParams params exprs values own)
      (Exec.bindParams (params.map (Param.respan f)) (Expr.allRespan f exprs) values own) := by
  fun_induction Exec.bindParams params exprs values own with
  | case1 exprs values own => exact c.pure rfl
  | case2 p params e exprs v values own h ih =>
    rw [Expr.allRespan, List.map_cons, Exec.bindParams]
    rw [if_pos (show v.type = (p.respan f).type from h)]
    exact ih
  | case3 p params e exprs v values own h =>
    rw [Expr.allRespan, List.map_cons, Exec.bindParams]
    rw [if_neg (show ¬ v.type = (p.respan f).type from h), Expr.span_respan]
    exact c.fail ⟨Code.noConfusion, Code.noConfusion⟩ _
  | case4 p params exprs values own h =>
    have hstuck : Exec.bindParams ((p :: params).map (Param.respan f)) (Expr.allRespan f exprs)
        values own = throw .stuck := by
      rw [List.map_cons]
      cases exprs with
      | nil => rw [Expr.allRespan, Exec.bindParams]; exact fun _ _ _ _ h => by cases h
      | cons e exprs =>
        cases values with
        | nil => rw [Expr.allRespan, Exec.bindParams]; exact fun _ _ _ _ _ h => by cases h
        | cons v values => exact (h e exprs v values rfl rfl).elim
    rw [hstuck]
    exact c.stuck

theorem operate (op : BinOp) (left right : Expr) (a b : Value) :
    c.Rel Eq (Exec.operate op left right a b)
      (Exec.operate op (left.respan f) (right.respan f) a b) := by
  unfold Exec.operate
  cases h : op.apply a b with
  | ok v => exact c.pure rfl
  | error e =>
    obtain ⟨side, fault⟩ := e
    have hown : fault.Own := BinOp.own_of_apply h
    cases side with
    | left => dsimp only; rw [Expr.span_respan]; exact c.fail hown _
    | right => dsimp only; rw [Expr.span_respan]; exact c.fail hown _

theorem itemAt (place : Expr) (items : List Value) (i : Int64) :
    c.Rel Eq (Exec.itemAt place items i) (Exec.itemAt (place.respan f) items i) := by
  unfold Exec.itemAt
  rw [Expr.span_respan]
  -- Before the first item, behind the last, or at one.
  apply c.branch
  · exact c.fail ⟨Code.noConfusion, Code.noConfusion⟩ _
  apply c.branch
  · exact c.fail ⟨Code.noConfusion, Code.noConfusion⟩ _
  cases items[i.toInt.toNat]? with
  | none => exact c.stuck
  | some v => exact c.pure rfl

theorem setItem (place from_ : Expr) (elem : Ty) (items : List Value) (i : Int64) (v : Value) :
    c.Rel Eq (Exec.setItem place from_ elem items i v)
      (Exec.setItem (place.respan f) (from_.respan f) elem items i v) := by
  unfold Exec.setItem
  rw [Expr.span_respan, Expr.span_respan]
  -- Out of bounds, of a wrong type, one behind the last item, or in place of an item.
  apply c.branch
  · exact c.fail ⟨Code.noConfusion, Code.noConfusion⟩ _
  apply c.branch
  · exact c.fail ⟨Code.noConfusion, Code.noConfusion⟩ _
  apply c.branch
  · exact c.pure rfl
  cases (Value.vec elem items).with? i.toInt.toNat v with
  | none => exact c.stuck
  | some changed => exact c.pure rfl

theorem returned (wanted : Bool) (name : Bytes) (span : Span) (result : Option Ty)
    (v : Option Value) :
    c.Rel Eq (Exec.returned wanted name span result v)
      (Exec.returned wanted name (f span) result v) := by
  cases v with
  | none =>
    simp only [Exec.returned]
    cases wanted with
    | true => exact c.fail ⟨Code.noConfusion, Code.noConfusion⟩ _
    | false => exact c.pure rfl
  | some v =>
    cases result with
    | none => exact c.stuck
    | some t =>
      simp only [Exec.returned]
      apply c.branch
      · exact c.pure rfl
      · exact c.fail ⟨Code.noConfusion, Code.noConfusion⟩ _

theorem apply (b : Builtin) (span argSpan : Span) (args : List Value) :
    c.Rel Eq (b.apply span argSpan args) (b.apply (f span) (f argSpan) args) := by
  unfold Builtin.apply
  split
  · exact c.seq (c.write _ _) fun _ => c.pure rfl
  · exact c.seq (c.write _ _) fun _ => c.pure rfl
  · exact c.seq (c.readLine _) fun _ => c.pure rfl
  · rename_i v
    cases v.toInt? with
    | none => exact c.fail ⟨Code.noConfusion, Code.noConfusion⟩ _
    | some n => exact c.pure rfl
  · rename_i v
    cases v.toBool? with
    | none => exact c.fail ⟨Code.noConfusion, Code.noConfusion⟩ _
    | some t => exact c.pure rfl
  · exact c.pure rfl
  · rename_i v
    cases v.length? with
    | none => exact c.mismatch _ _ _
    | some n => exact c.pure rfl
  · exact c.stuck

theorem callBuiltin (wanted : Bool) (b : Builtin) (name : Bytes) (span : Span) (args : List Expr)
    (values : List Value) :
    c.Rel Eq (Exec.callBuiltin wanted b name span args values)
      (Exec.callBuiltin wanted b name (f span) (Expr.allRespan f args) values) := by
  -- A fault of an argument is placed at the first one, or at the call if there is none.
  have hspan : ((Expr.allRespan f args).head?.map Expr.span).getD (f span) =
      f ((args.head?.map Expr.span).getD span) := by
    cases args with
    | nil => rw [Expr.allRespan]; rfl
    | cons e rest => rw [Expr.allRespan]; exact Expr.span_respan e
  have happly : c.Rel Eq (do
      let v ← b.apply span ((args.head?.map Expr.span).getD span) values
      if wanted && v.isNone then Exec.fail (.noValue name) span else return v) (do
      let v ← b.apply (f span) (f ((args.head?.map Expr.span).getD span)) values
      if wanted && v.isNone then Exec.fail (.noValue name) (f span) else return v) := by
    refine c.seq (c.apply b span _ values) fun v => ?_
    apply c.branch
    · exact c.fail ⟨Code.noConfusion, Code.noConfusion⟩ _
    · exact c.pure rfl
  unfold Exec.callBuiltin
  rw [hspan]
  cases b.arity? with
  | none => exact happly
  | some n =>
    dsimp only
    apply c.branch
    · exact c.seq (c.fail ⟨Code.noConfusion, Code.noConfusion⟩ _) fun _ => happly
    · exact happly

end Pairing

theorem Comparison.callee {f : Span → Span} (c : Comparison f) (wanted : Bool) (name : Bytes)
    (nameSpan span : Span) (argc : Nat) :
    c.Rel (fun g h => h = g.respan f) (Exec.callee wanted name nameSpan span argc)
      (Exec.callee wanted name (f nameSpan) (f span) argc) := by
  refine c.bind c.look fun m m' hm => ?_
  rw [hm.function name]
  cases m.function? name with
  | none => exact c.fail ⟨Code.noConfusion, Code.noConfusion⟩ _
  | some g =>
    have hlength : (g.respan f).params.length = g.params.length := List.length_map ..
    have hresult : (g.respan f).result = g.result := rfl
    simp only [Option.map_some, hlength, hresult]
    apply c.branch
    · exact c.fail ⟨Code.noConfusion, Code.noConfusion⟩ _
    apply c.branch
    · exact c.fail ⟨Code.noConfusion, Code.noConfusion⟩ _
    · exact c.pure rfl

/-- A comparison that holds also of counting steps and of changing variables, each run within its
own budget. -/
structure Congruence (f : Span → Span) (b b' : Budget) extends Comparison f where
  exit : ∀ {α β : Type} {P : α → β → Prop} (n : Int64),
    toComparison.Rel P (throw (.exit n)) (throw (.exit n))
  tick : ∀ span, toComparison.Rel Eq (tick b span) (tick b' (f span))
  checkDepth : ∀ span, toComparison.Rel Eq (checkDepth b span) (checkDepth b' (f span))
  declare : ∀ name v, toComparison.Rel Eq (modify (Machine.declare name v))
    (modify (Machine.declare name v))
  assign : ∀ name v, toComparison.Rel Eq (modify (Machine.assign name v))
    (modify (Machine.assign name v))
  define : ∀ name g, toComparison.Rel Eq (modify (Machine.define name g))
    (modify (Machine.define name (g.respan f)))
  inCall : ∀ {α β : Type} {P : α → β → Prop} {x : Exec α} {y : Exec β} (own : Scope),
    toComparison.Rel P x y → toComparison.Rel P (inCall own x) (inCall own y)

/-- What two runs with given amounts of fuel have in common. -/
structure AgreeAt {f : Span → Span} {b b' : Budget} (c : Congruence f b b') (n n' : Nat) :
    Prop where
  eval : ∀ hint e, c.Rel Eq (eval b n hint e) (eval b' n' hint (e.respan f))
  items : ∀ t es, c.Rel Eq (evalItems b n t es) (evalItems b' n' t (Expr.allRespan f es))
  args : ∀ hints es, c.Rel Eq (evalArgs b n hints es) (evalArgs b' n' hints (Expr.allRespan f es))
  call : ∀ wanted name nameSpan args span, c.Rel Eq (call b n wanted name nameSpan args span)
    (call b' n' wanted name (f nameSpan) (Expr.allRespan f args) (f span))
  stmt : ∀ s, c.Rel Eq (stmt b n s) (stmt b' n' (s.respan f))
  block : ∀ ss, c.Rel Eq (block b n ss) (block b' n' (Stmt.allRespan f ss))
  rounds : ∀ body span, c.Rel Eq (rounds b n body span)
    (rounds b' n' (Stmt.allRespan f body) (f span))

section Step

variable {f : Span → Span} {b b' : Budget} {c : Congruence f b b'} {n n' : Nat}
  (ih : AgreeAt c n n')
include ih

theorem agree_eval (hint : Option Ty) (e : Expr) :
    c.Rel Eq (eval b (n + 1) hint e) (eval b' (n' + 1) hint (e.respan f)) := by
  cases e with
  | int k span | str s span | bool t span =>
    rw [Expr.respan, Exec.eval, Exec.eval]
    exact c.pure rfl
  | ident name span =>
    rw [Expr.respan, Exec.eval, Exec.eval]
    refine c.bind c.look fun m m' hm => ?_
    rw [hm.slot name]
    cases m.slot? name with
    | none => exact c.fail ⟨Code.noConfusion, Code.noConfusion⟩ _
    | some slot => exact c.pure rfl
  | vec elems span =>
    rw [Expr.respan, Exec.eval, Exec.eval]
    refine c.seq (ih.items _ elems) fun r => ?_
    obtain ⟨t, items⟩ := r
    cases t with
    | none => exact c.fail ⟨Code.noConfusion, Code.noConfusion⟩ _
    | some t => exact c.pure rfl
  | neg operand span =>
    rw [Expr.respan, Exec.eval, Exec.eval]
    refine c.seq (ih.eval none operand) fun v => ?_
    rw [Expr.span_respan]
    cases v with
    | int k => exact c.pure rfl
    | str _ | bool _ | vec _ _ => exact c.mismatch _ _ _
  | binary op left right span =>
    rw [Expr.respan, Exec.eval, Exec.eval]
    refine c.seq (ih.eval none left) fun a => ?_
    refine c.seq (ih.eval (some a.type) right) fun d => ?_
    exact c.operate op left right a d
  | call name nameSpan args span =>
    rw [Expr.respan, Exec.eval, Exec.eval]
    refine c.seq (ih.call true name nameSpan args span) fun r => ?_
    cases r with
    | none => exact c.stuck
    | some v => exact c.pure rfl
  | index target place span =>
    rw [Expr.respan, Exec.eval, Exec.eval]
    refine c.seq (ih.eval none target) fun v => ?_
    rw [Expr.span_respan, Expr.span_respan]
    cases v with
    | int _ | str _ | bool _ => exact c.mismatch _ _ _
    | vec elem items =>
      refine c.seq (ih.eval none place) fun i => ?_
      cases i with
      | int i => exact c.itemAt place items i
      | str _ | bool _ | vec _ _ => exact c.mismatch _ _ _

theorem agree_evalItems (t : Option Ty) (es : List Expr) :
    c.Rel Eq (evalItems b (n + 1) t es) (evalItems b' (n' + 1) t (Expr.allRespan f es)) := by
  cases es with
  | nil =>
    rw [Expr.allRespan, Exec.evalItems, Exec.evalItems]
    exact c.pure rfl
  | cons e rest =>
    rw [Expr.allRespan, Exec.evalItems, Exec.evalItems]
    refine c.seq (ih.eval t e) fun v => ?_
    dsimp only
    rw [Expr.span_respan]
    apply c.branch
    · exact c.fail ⟨Code.noConfusion, Code.noConfusion⟩ _
    · exact c.seq (ih.items _ rest) fun _ => c.pure rfl

theorem agree_evalArgs (hints : List Ty) (es : List Expr) :
    c.Rel Eq (evalArgs b (n + 1) hints es)
      (evalArgs b' (n' + 1) hints (Expr.allRespan f es)) := by
  cases es with
  | nil =>
    rw [Expr.allRespan, Exec.evalArgs, Exec.evalArgs]
    exact c.pure rfl
  | cons e rest =>
    rw [Expr.allRespan, Exec.evalArgs, Exec.evalArgs]
    refine c.seq (ih.eval _ e) fun v => ?_
    exact c.seq (ih.args _ rest) fun _ => c.pure rfl

theorem agree_call (wanted : Bool) (name : Bytes) (nameSpan : Span) (args : List Expr)
    (span : Span) :
    c.Rel Eq (call b (n + 1) wanted name nameSpan args span)
      (call b' (n' + 1) wanted name (f nameSpan) (Expr.allRespan f args) (f span)) := by
  rw [Exec.call, Exec.call]
  have hlength : (Expr.allRespan f args).length = args.length := by
    rw [Expr.allRespan_eq_map, List.length_map]
  cases Builtin.ofName? name with
  | some builtin =>
    dsimp only
    refine c.seq (ih.args [] args) fun values => ?_
    exact c.callBuiltin wanted builtin name span args values
  | none =>
    dsimp only
    rw [hlength]
    -- The functions found differ in places, which the types of the parameters have none of.
    refine c.bind (c.callee wanted name nameSpan span args.length) fun g h hgh => ?_
    subst hgh
    have hhints : (g.respan f).params.map Param.type = g.params.map Param.type := by
      unfold Function.respan
      rw [List.map_map]
      rfl
    rw [hhints]
    refine c.seq (ih.args _ args) fun values => ?_
    refine c.seq (c.bindParams g.params args values []) fun own => ?_
    refine c.seq (c.checkDepth span) fun _ => ?_
    refine c.seq (c.inCall own (ih.block g.body)) fun flow => ?_
    cases flow with
    | next | leave => exact c.returned wanted name span g.result none
    | ret v => exact c.returned wanted name span g.result v

theorem agree_letVar (name : Bytes) (nameSpan : Span) (type : Option Ty) (value : Expr)
    (span : Span) :
    c.Rel Eq (stmt b (n + 1) (.letVar name nameSpan type value span))
      (stmt b' (n' + 1) (.letVar name (f nameSpan) type (value.respan f) (f span))) := by
  rw [Exec.stmt, Exec.stmt]
  refine c.seq (c.tick span) fun _ => ?_
  refine c.seq (ih.eval type value) fun v => ?_
  have hdeclare : c.Rel Eq (do modify (Machine.declare name v); return Flow.next)
      (do modify (Machine.declare name v); return Flow.next) :=
    c.seq (c.declare name v) fun _ => c.pure rfl
  dsimp only
  rw [Expr.span_respan]
  cases type with
  | none => exact hdeclare
  | some t =>
    dsimp only
    apply c.branch
    · exact c.seq (c.fail ⟨Code.noConfusion, Code.noConfusion⟩ _) fun _ => hdeclare
    · exact hdeclare

theorem agree_assign (name : Bytes) (value : Expr) (span : Span) :
    c.Rel Eq (stmt b (n + 1) (.assign name value span))
      (stmt b' (n' + 1) (.assign name (value.respan f) (f span))) := by
  rw [Exec.stmt, Exec.stmt]
  refine c.seq (c.tick span) fun _ => ?_
  refine c.bind c.look fun m m' hm => ?_
  rw [hm.slot name]
  cases m.slot? name with
  | none => exact c.fail ⟨Code.noConfusion, Code.noConfusion⟩ _
  | some slot =>
    refine c.seq (ih.eval (some slot.type) value) fun v => ?_
    have hassign : c.Rel Eq (do modify (Machine.assign name v); return Flow.next)
        (do modify (Machine.assign name v); return Flow.next) :=
      c.seq (c.assign name v) fun _ => c.pure rfl
    dsimp only
    rw [Expr.span_respan]
    apply c.branch
    · exact c.seq (c.fail ⟨Code.noConfusion, Code.noConfusion⟩ _) fun _ => hassign
    · exact hassign

theorem agree_assignAt (name : Bytes) (place value : Expr) (span : Span) :
    c.Rel Eq (stmt b (n + 1) (.assignAt name place value span))
      (stmt b' (n' + 1) (.assignAt name (place.respan f) (value.respan f) (f span))) := by
  rw [Exec.stmt, Exec.stmt]
  refine c.seq (c.tick span) fun _ => ?_
  refine c.bind c.look fun m m' hm => ?_
  rw [hm.slot name]
  cases m.slot? name with
  | none => exact c.fail ⟨Code.noConfusion, Code.noConfusion⟩ _
  | some slot =>
    obtain ⟨type, held⟩ := slot
    cases held with
    | int _ | str _ | bool _ => exact c.mismatch _ _ _
    | vec elem items =>
      refine c.seq (ih.eval none place) fun i => ?_
      cases i with
      | str _ | bool _ | vec _ _ => dsimp only; rw [Expr.span_respan]; exact c.mismatch _ _ _
      | int i =>
        refine c.seq (ih.eval (some elem) value) fun v => ?_
        refine c.seq (c.setItem place value elem items i v) fun changed => ?_
        exact c.seq (c.assign name changed) fun _ => c.pure rfl

theorem agree_stmt (s : Stmt) :
    c.Rel Eq (stmt b (n + 1) s) (stmt b' (n' + 1) (s.respan f)) := by
  cases s with
  | letVar name nameSpan type value span =>
    rw [Stmt.respan]
    exact agree_letVar ih name nameSpan type value span
  | assign name value span => rw [Stmt.respan]; exact agree_assign ih name value span
  | assignAt name place value span =>
    rw [Stmt.respan]
    exact agree_assignAt ih name place value span
  | call name nameSpan args callSpan span =>
    rw [Stmt.respan, Exec.stmt, Exec.stmt]
    refine c.seq (c.tick span) fun _ => ?_
    exact c.seq (ih.call false name nameSpan args callSpan) fun _ => c.pure rfl
  | when cond body bodySpan span =>
    rw [Stmt.respan, Exec.stmt, Exec.stmt]
    refine c.seq (c.tick span) fun _ => ?_
    refine c.seq (ih.eval none cond) fun v => ?_
    rw [Expr.span_respan]
    cases v with
    | bool t =>
      cases t with
      | true => exact ih.block body
      | false => exact c.pure rfl
    | int _ | str _ | vec _ _ => exact c.mismatch _ _ _
  | ifElse cond body bodySpan other otherSpan span =>
    rw [Stmt.respan, Exec.stmt, Exec.stmt]
    refine c.seq (c.tick span) fun _ => ?_
    refine c.seq (ih.eval none cond) fun v => ?_
    rw [Expr.span_respan]
    cases v with
    | bool t =>
      cases t with
      | true => exact ih.block body
      | false => exact ih.block other
    | int _ | str _ | vec _ _ => exact c.mismatch _ _ _
  | loop body bodySpan span =>
    rw [Stmt.respan, Exec.stmt, Exec.stmt]
    exact c.seq (c.tick span) fun _ => ih.rounds body span
  | stop span =>
    rw [Stmt.respan, Exec.stmt, Exec.stmt]
    exact c.seq (c.tick span) fun _ => c.pure rfl
  | ret value span =>
    cases value with
    | none =>
      rw [Stmt.respan, Exec.stmt, Option.map_none, Exec.stmt]
      exact c.seq (c.tick span) fun _ => c.pure rfl
    | some value =>
      rw [Stmt.respan, Exec.stmt, Option.map_some, Exec.stmt]
      refine c.seq (c.tick span) fun _ => ?_
      exact c.seq (ih.eval none value) fun _ => c.pure rfl
  | exit value span =>
    rw [Stmt.respan, Exec.stmt, Exec.stmt]
    refine c.seq (c.tick span) fun _ => ?_
    refine c.seq (ih.eval none value) fun v => ?_
    rw [Expr.span_respan]
    cases v with
    | int k => exact c.exit k
    | str _ | bool _ | vec _ _ => exact c.mismatch _ _ _
  | fn name params result body bodySpan span =>
    rw [Stmt.respan, Exec.stmt, Exec.stmt]
    refine c.seq (c.tick span) fun _ => ?_
    cases Builtin.ofName? name with
    | some builtin => exact c.fail ⟨Code.noConfusion, Code.noConfusion⟩ _
    | none => exact c.seq (c.define name ⟨params, result, body⟩) fun _ => c.pure rfl

theorem agree_block (ss : List Stmt) :
    c.Rel Eq (block b (n + 1) ss) (block b' (n' + 1) (Stmt.allRespan f ss)) := by
  cases ss with
  | nil =>
    rw [Stmt.allRespan, Exec.block, Exec.block]
    exact c.pure rfl
  | cons s rest =>
    rw [Stmt.allRespan, Exec.block, Exec.block]
    refine c.seq (ih.stmt s) fun flow => ?_
    cases flow with
    | next => exact ih.block rest
    | leave | ret v => exact c.pure rfl

theorem agree_rounds (body : List Stmt) (span : Span) :
    c.Rel Eq (rounds b (n + 1) body span)
      (rounds b' (n' + 1) (Stmt.allRespan f body) (f span)) := by
  rw [Exec.rounds, Exec.rounds]
  refine c.seq (ih.block body) fun flow => ?_
  cases flow with
  | leave | ret v => exact c.pure rfl
  | next => exact c.seq (c.tick span) fun _ => ih.rounds body span

/-- One more unit of fuel for both runs keeps them alike. -/
theorem AgreeAt.succ : AgreeAt c (n + 1) (n' + 1) :=
  ⟨agree_eval ih, agree_evalItems ih, agree_evalArgs ih, agree_call ih, agree_stmt ih,
    agree_block ih, agree_rounds ih⟩

end Step

/-- Runs with the same fuel are alike if giving up for want of it is. -/
theorem Congruence.agree {f : Span → Span} {b b' : Budget} (c : Congruence f b b')
    (hfuel : ∀ {α : Type} {P : α → α → Prop},
      c.Rel P (throw .outOfFuel : Exec α) (throw .outOfFuel)) (n : Nat) : AgreeAt c n n := by
  induction n with
  | zero =>
    -- Without fuel every part gives up at once.
    constructor
    · intro hint e; rw [eval_zero, eval_zero]; exact hfuel
    · intro t es; rw [evalItems_zero, evalItems_zero]; exact hfuel
    · intro hints es; rw [evalArgs_zero, evalArgs_zero]; exact hfuel
    · intro wanted name nameSpan args span; rw [call_zero, call_zero]; exact hfuel
    · intro s; rw [stmt_zero, stmt_zero]; exact hfuel
    · intro ss; rw [block_zero, block_zero]; exact hfuel
    · intro body span; rw [rounds_zero, rounds_zero]; exact hfuel
  | succ n ih => exact ih.succ

end Exec
end Scriptlet
