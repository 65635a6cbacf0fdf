import Scriptlet.Proofs.Machine.Frame
import Scriptlet.Proofs.Program.Placement

/-!
# Soundness: sound machines stay sound and never get stuck

A machine is sound if every variable holds a typed value of the type recorded for it, and if the
declared functions are as parsing leaves them and bear no builtin's name. From a sound machine,
statements that stand where they may run to an orderly end: they give a flow that fits their place,
or stop with an error of a running program, an exit, or for want of fuel. The machine they leave
is sound again in every case.

The proof is one induction on fuel over all the mutually recursive parts of an execution; the
frame lemmas say that the type an assignment was checked against is still the recorded one when the
value is stored.
-/

namespace Scriptlet

/-! ## Sound machines -/

/-- The slot holds a typed value of the recorded type. -/
structure Slot.Typed (s : Slot) : Prop where
  agrees : s.value.type = s.type
  value : s.value.Typed

theorem Slot.Typed.known {s : Slot} (h : s.Typed) : s.type.Known := by
  rw [← h.agrees]
  exact h.value.known

namespace Scope

/-- Every slot of the scope is typed. -/
def Typed (s : Scope) : Prop := ∀ b ∈ s, b.2.Typed

theorem typed_nil : Typed [] := fun b hb => by cases hb

theorem Typed.find? {s : Scope} (h : s.Typed) {name : Bytes} {slot : Slot}
    (hs : s.find? name = some slot) : slot.Typed := by
  induction s with
  | nil => cases hs
  | cons b rest ih =>
    unfold Scope.find? at hs
    split at hs
    · cases hs; exact h b (List.mem_cons_self ..)
    · exact ih (fun c hc => h c (List.mem_cons_of_mem _ hc)) hs

theorem Typed.declare {s : Scope} (h : s.Typed) (name : Bytes) {slot : Slot} (hs : slot.Typed) :
    (s.declare name slot).Typed := by
  induction s with
  | nil =>
    intro b hb
    rw [Scope.declare, List.mem_singleton] at hb
    rw [hb]
    exact hs
  | cons c rest ih =>
    have hrest : Typed rest := fun b hb => h b (List.mem_cons_of_mem _ hb)
    intro b hb
    unfold Scope.declare at hb
    split at hb
    · rcases List.mem_cons.1 hb with rfl | hb
      · exact hs
      · exact hrest b hb
    · rcases List.mem_cons.1 hb with rfl | hb
      · exact h _ (List.mem_cons_self ..)
      · exact ih hrest b hb

/-- Storing a typed value of the recorded type keeps a scope typed. -/
theorem Typed.assign {s : Scope} (h : s.Typed) {name : Bytes} {v : Value} (hv : v.Typed)
    (ht : ∀ t, s.typeOf? name = some t → v.type = t) : (s.assign name v).Typed := by
  induction s with
  | nil => exact h
  | cons c rest ih =>
    have hrest : Typed rest := fun b hb => h b (List.mem_cons_of_mem _ hb)
    intro b hb
    unfold Scope.assign at hb
    split at hb
    · rename_i hname
      rcases List.mem_cons.1 hb with rfl | hb
      · exact ⟨ht c.2.type (by simp [typeOf?, Scope.find?, hname]), hv⟩
      · exact hrest b hb
    · rename_i hname
      rcases List.mem_cons.1 hb with rfl | hb
      · exact h _ (List.mem_cons_self ..)
      · refine ih hrest (fun t hst => ht t ?_) b hb
        simpa [typeOf?, Scope.find?, hname] using hst

end Scope

/-- The function is as parsing leaves it. -/
structure Function.Sound (f : Function) : Prop where
  params : ∀ p ∈ f.params, p.type.Known
  result : ∀ t ∈ f.result, t.Known
  body : Stmt.AllPlaced (.body f.result) f.body

theorem Function.Sound.hints {f : Function} (h : f.Sound) :
    ∀ t ∈ f.params.map Param.type, Ty.Known t := by
  intro t ht
  obtain ⟨p, hp, rfl⟩ := List.mem_map.1 ht
  exact h.params p hp

namespace Machine

/-- The variables are typed, and the declared functions are sound and bear no builtin's name. -/
structure Sound (m : Machine) : Prop where
  globals : m.globals.Typed
  locals : ∀ own ∈ m.locals, own.Typed
  functions : ∀ b ∈ m.functions, Builtin.ofName? b.1 = none ∧ b.2.Sound

namespace Sound

variable {m : Machine}

/-- Soundness is about the variables and the functions only. -/
theorem congr {n : Machine} (h : m.Sound) (hg : n.globals = m.globals)
    (hl : n.locals = m.locals) (hf : n.functions = m.functions) : n.Sound :=
  ⟨hg ▸ h.globals, hl ▸ h.locals, hf ▸ h.functions⟩

theorem slot? (h : m.Sound) {name : Bytes} {slot : Slot} (hs : m.slot? name = some slot) :
    slot.Typed := by
  unfold Machine.slot? at hs
  split at hs
  · exact h.globals.find? hs
  · rename_i own hown
    split at hs
    · rename_i s hfind
      cases hs
      exact (h.locals own hown).find? hfind
    · exact h.globals.find? hs

theorem function? (h : m.Sound) {name : Bytes} {f : Function} (hf : m.function? name = some f) :
    f.Sound := by
  unfold Machine.function? at hf
  obtain ⟨l, r, hlr, -⟩ := List.lookup_eq_some_iff.1 hf
  exact (h.functions (name, f) (by rw [hlr]; simp)).2

theorem declare (h : m.Sound) (name : Bytes) {v : Value} (hv : v.Typed) :
    (m.declare name v).Sound := by
  unfold Machine.declare
  split
  · rename_i hl
    exact ⟨h.globals.declare name ⟨rfl, hv⟩, h.locals, h.functions⟩
  · rename_i own hl
    refine ⟨h.globals, fun own' hown' => ?_, h.functions⟩
    cases hown'
    exact (h.locals own hl).declare name ⟨rfl, hv⟩

/-- Storing a typed value in a variable of its type keeps the machine sound. -/
theorem assign (h : m.Sound) {name : Bytes} {v : Value} (hv : v.Typed)
    (ht : (m.slot? name).map Slot.type = some v.type) : (m.assign name v).Sound := by
  have hglobal (hg : (m.globals.find? name).map Slot.type = some v.type) :
      (m.globals.assign name v).Typed :=
    h.globals.assign hv fun t hst => Option.some.inj (hg.symm.trans hst)
  unfold Machine.assign
  unfold Machine.slot? at ht
  split
  · rename_i hl
    rw [hl] at ht
    exact ⟨hglobal ht, h.locals, h.functions⟩
  · rename_i own hl
    simp only [hl] at ht
    split
    · rename_i slot hfind
      rw [hfind] at ht
      refine ⟨h.globals, fun own' hown' => ?_, h.functions⟩
      cases hown'
      refine (h.locals own hl).assign hv fun t hst => ?_
      rw [Scope.typeOf?, hfind] at hst
      exact Option.some.inj (ht.symm.trans hst)
    · rename_i hfind
      rw [hfind] at ht
      exact ⟨hglobal ht, h.locals, h.functions⟩

theorem define (h : m.Sound) {name : Bytes} {f : Function} (hname : Builtin.ofName? name = none)
    (hf : f.Sound) : (m.define name f).Sound := by
  refine ⟨h.globals, h.locals, fun b hb => ?_⟩
  rcases List.mem_cons.1 hb with rfl | hb
  · exact ⟨hname, hf⟩
  · exact h.functions b (List.mem_filter.1 hb).1

/-- A machine is sound inside a call if it is outside and the callee's variables are typed. -/
theorem enter (h : m.Sound) {own : Scope} (hown : own.Typed) (depth : Nat) :
    Sound { m with locals := some own, depth } :=
  ⟨h.globals, fun own' hown' => by cases hown'; exact hown, h.functions⟩

end Sound
end Machine

/-- The ways in which a run may stop: all but the state that no parsed program reaches, and no
error of an ill-formed text. -/
def Halt.Orderly : Halt → Prop
  | .fault d => d.code ≠ .malformed
  | .exit _ | .outOfFuel => True
  | .stuck => False

/-- The flow is one that a statement at the place may give: it leaves a loop only where there is
one, and returns only from a function, with a value exactly if one is declared. -/
def Flow.Fits (c : Place) : Flow → Prop
  | .next => True
  | .leave => c.inLoop = true
  | .ret v => (∃ result, c.function = some result ∧ v.isSome = result.isSome) ∧ ∀ u ∈ v, u.Typed

namespace Exec

open Machine

variable {α β : Type} {post : α → Prop} {post' : β → Prop}

/-- From a sound machine the action gives only what satisfies `post`, stops only in an orderly way,
and leaves a sound machine in either case. -/
def Safe (post : α → Prop) (x : Exec α) : Prop :=
  ∀ m, m.Sound → Ends (x m) (fun a n => post a ∧ n.Sound) (fun h n => h.Orderly ∧ n.Sound)

namespace Safe

theorem pure {a : α} (h : post a) : Safe post (pure a : Exec α) := fun _ hm => ⟨h, hm⟩

theorem throw {halt : Halt} (h : halt.Orderly) : Safe post (throw halt : Exec α) :=
  fun _ hm => ⟨h, hm⟩

theorem fail {fault : Fault} (h : fault.code ≠ .malformed) (span : Span) :
    Safe post (fail fault span : Exec α) := fun _ hm => ⟨h, hm⟩

theorem mismatch (need : Need) (got : Value) (span : Span) :
    Safe post (mismatch need got span : Exec α) := fail Code.noConfusion span

/-- The machine an action looks at is the sound one it runs on. -/
theorem get : Safe Machine.Sound (get : Exec Machine) := fun _ hm => ⟨hm, hm⟩

theorem modify {f : Machine → Machine} (h : ∀ m : Machine, m.Sound → (f m).Sound) :
    Safe (fun _ => True) (modify f : Exec PUnit) := fun m hm => ⟨trivial, h m hm⟩

theorem bind {x : Exec α} {f : α → Exec β} (hx : Safe post x)
    (hf : ∀ a, post a → Safe post' (f a)) : Safe post' (x >>= f) := by
  intro m hm
  rw [Ends.bind_iff]
  exact (hx m hm).mono (fun a n ha => hf a ha.1 n ha.2) (fun _ _ h => h)

end Safe

/-! ## The parts that do not recur -/

theorem safe_tick (budget : Budget) (span : Span) : Safe (fun _ => True) (tick budget span) := by
  refine Safe.bind (Safe.modify fun m hm => hm.congr rfl rfl rfl) fun _ _ => ?_
  refine Safe.bind Safe.get fun m _ => ?_
  split
  · exact Safe.fail Code.noConfusion _
  · split
    · split
      · exact Safe.fail Code.noConfusion _
      · exact Safe.pure trivial
    · exact Safe.pure trivial

theorem safe_write (span : Span) (text : Bytes) : Safe (fun _ => True) (write span text) := by
  refine Safe.bind Safe.get fun m _ => ?_
  refine Safe.bind (Safe.modify fun m hm => hm.congr rfl rfl rfl) fun _ _ => ?_
  split
  · exact Safe.pure trivial
  · exact Safe.fail Code.noConfusion _

theorem safe_readLine (span : Span) : Safe (fun _ => True) (readLine span) := by
  refine Safe.bind Safe.get fun m _ => ?_
  refine Safe.bind (Safe.modify fun m hm => hm.congr rfl rfl rfl) fun _ _ => ?_
  split
  · exact Safe.pure trivial
  · exact Safe.fail Code.noConfusion _

theorem safe_inCall {body : Exec α} (h : Safe post body) {own : Scope} (hown : own.Typed) :
    Safe post (inCall own body) := by
  intro m hm
  have hb := h _ (hm.enter hown (m.depth + 1))
  unfold inCall
  cases hr : body { m with locals := some own, depth := m.depth + 1 } with
  | ok a n =>
    obtain ⟨ha, hn⟩ := hb.of_ok hr
    exact ⟨ha, hn.globals, hm.locals, hn.functions⟩
  | error e n =>
    obtain ⟨he, hn⟩ := hb.of_error hr
    exact ⟨he, hn.globals, hm.locals, hn.functions⟩

/-- Arguments as many as the parameters are bound, or one is refused for its type. -/
theorem safe_bindParams (params : List Param) (exprs : List Expr) (values : List Value)
    (own : Scope) (hexprs : exprs.length = params.length) (hvalues : values.length = params.length)
    (htyped : ∀ v ∈ values, v.Typed) (hown : own.Typed) :
    Safe Scope.Typed (bindParams params exprs values own) := by
  fun_induction bindParams params exprs values own with
  | case1 exprs values own => exact Safe.pure hown
  | case2 p params e exprs v values own h ih =>
    refine ih (by simpa using hexprs) (by simpa using hvalues)
      (fun w hw => htyped w (List.mem_cons_of_mem _ hw)) ?_
    exact hown.declare p.name ⟨h, htyped v (List.mem_cons_self ..)⟩
  | case3 p params e exprs v values own h => exact Safe.fail Code.noConfusion _
  | case4 p params exprs values own h =>
    -- Neither list can be shorter than the parameters.
    cases exprs with
    | nil => simp at hexprs
    | cons e exprs =>
      cases values with
      | nil => simp at hvalues
      | cons v values => exact absurd rfl (h e exprs v values rfl)

theorem safe_operate (op : BinOp) (left right : Expr) (a b : Value) :
    Safe Value.Typed (operate op left right a b) := by
  have hsound := BinOp.sound_apply op a b
  unfold operate
  split
  · rename_i v hv
    rw [hv] at hsound
    exact Safe.pure hsound
  · rename_i fault hf
    rw [hf] at hsound
    exact Safe.fail hsound _
  · rename_i fault hf
    rw [hf] at hsound
    exact Safe.fail hsound _

theorem safe_itemAt (place : Expr) {elem : Ty} {items : List Value}
    (h : Value.Typed (.vec elem items)) (i : Int64) : Safe Value.Typed (itemAt place items i) := by
  unfold itemAt
  split
  · exact Safe.fail Code.noConfusion _
  · split
    · exact Safe.fail Code.noConfusion _
    · rename_i hneg hlen
      split
      · rename_i v hv
        exact Safe.pure (h.of_mem (List.mem_of_getElem? hv)).1
      · -- The index was found to be neither negative nor past the end.
        rename_i hnone
        rw [List.getElem?_eq_none_iff] at hnone
        rw [Int64.lt_iff_toInt_lt, Int64.toInt_zero] at hneg
        omega

theorem safe_setItem (place from_ : Expr) {elem : Ty} {items : List Value}
    (h : Value.Typed (.vec elem items)) (i : Int64) {v : Value} (hv : v.Typed) :
    Safe (fun w => w.Typed ∧ w.type = elem.vecOf) (setItem place from_ elem items i v) := by
  unfold setItem
  split
  · exact Safe.fail Code.noConfusion _
  · rename_i hbounds
    split
    · exact Safe.fail Code.noConfusion _
    · rename_i htype
      have ht : v.type = elem := Decidable.not_not.1 htype
      split
      · exact Safe.pure ⟨h.push hv ht, rfl⟩
      · rename_i hend
        have hi : i.toInt.toNat < items.length := by omega
        simp only [Value.with?, hi, ↓reduceIte]
        exact Safe.pure ⟨h.set _ hv ht, rfl⟩

/-- A value is given back only where the function declares a result, and is then of its type. -/
theorem safe_returned (wanted : Bool) (name : Bytes) (span : Span) (result : Option Ty)
    (v : Option Value) (hv : v.isSome → result.isSome) (htyped : ∀ u ∈ v, u.Typed) :
    Safe (fun r => (wanted = true → r.isSome) ∧ ∀ u ∈ r, u.Typed)
      (returned wanted name span result v) := by
  unfold returned
  split
  · split
    · exact Safe.fail Code.noConfusion _
    · rename_i hwanted
      exact Safe.pure ⟨fun h => absurd h hwanted, fun u hu => by cases hu⟩
  · rename_i u
    split
    · simp at hv
    · split
      · exact Safe.pure ⟨fun _ => rfl, htyped⟩
      · exact Safe.fail Code.noConfusion _

theorem safe_callee (wanted : Bool) (name : Bytes) (nameSpan span : Span) (argc : Nat) :
    Safe (fun f => f.Sound ∧ f.params.length = argc) (callee wanted name nameSpan span argc) := by
  refine Safe.bind Safe.get fun m hm => ?_
  split
  · exact Safe.fail Code.noConfusion _
  · rename_i f hf
    split
    · exact Safe.fail Code.noConfusion _
    · split
      · exact Safe.fail Code.noConfusion _
      · rename_i hargc
        exact Safe.pure ⟨hm.function? hf, Decidable.not_not.1 hargc⟩

theorem safe_checkDepth (budget : Budget) (span : Span) :
    Safe (fun _ => True) (checkDepth budget span) := by
  refine Safe.bind Safe.get fun m _ => ?_
  split
  · exact Safe.fail Code.noConfusion _
  · exact Safe.pure trivial

/-- A builtin that gets as many arguments as it takes finds them. -/
theorem safe_apply (f : Builtin) (span argSpan : Span) (args : List Value)
    (harity : ∀ k, f.arity? = some k → args.length = k) :
    Safe (fun r => ∀ u ∈ r, u.Typed) (f.apply span argSpan args) := by
  have hone (h : f.arity? = some 1) : ∃ v, args = [v] := List.length_eq_one_iff.1 (harity 1 h)
  have hnone : ∀ u ∈ (none : Option Value), u.Typed := fun u hu => by cases hu
  have hsome {v : Value} (h : v.Typed) : ∀ u ∈ some v, u.Typed := fun u hu => by cases hu; exact h
  -- The builtins with an arity take one argument; the others look at all they get.
  cases f with
  | print => exact Safe.bind (safe_write _ _) fun _ _ => Safe.pure hnone
  | println => exact Safe.bind (safe_write _ _) fun _ _ => Safe.pure hnone
  | read => exact Safe.bind (safe_readLine _) fun _ _ => Safe.pure (hsome (.str _))
  | int =>
    obtain ⟨v, rfl⟩ := hone rfl
    simp only [Builtin.apply]
    split
    · exact Safe.pure (hsome (.int _))
    · exact Safe.fail Code.noConfusion _
  | bool =>
    obtain ⟨v, rfl⟩ := hone rfl
    simp only [Builtin.apply]
    split
    · exact Safe.pure (hsome (.bool _))
    · exact Safe.fail Code.noConfusion _
  | str =>
    obtain ⟨v, rfl⟩ := hone rfl
    exact Safe.pure (hsome (.str _))
  | len =>
    obtain ⟨v, rfl⟩ := hone rfl
    simp only [Builtin.apply]
    split
    · exact Safe.pure (hsome (.int _))
    · exact Safe.mismatch _ _ _

theorem safe_callBuiltin (wanted : Bool) (f : Builtin) (name : Bytes) (span : Span)
    (args : List Expr) (values : List Value) :
    Safe (fun r => (wanted = true → r.isSome) ∧ ∀ u ∈ r, u.Typed)
      (callBuiltin wanted f name span args values) := by
  have happly (h : ∀ k, f.arity? = some k → values.length = k) :
      Safe (fun r => (wanted = true → r.isSome) ∧ ∀ u ∈ r, u.Typed) (do
        let v ← f.apply span ((args.head?.map Expr.span).getD span) values
        if wanted && v.isNone then fail (.noValue name) span else return v) := by
    refine Safe.bind (safe_apply f _ _ values h) fun v hv => ?_
    split
    · exact Safe.fail Code.noConfusion _
    · rename_i hwanted
      refine Safe.pure ⟨fun hw => ?_, hv⟩
      cases v with
      | none => simp [hw] at hwanted
      | some u => rfl
  unfold callBuiltin
  split
  · rename_i k hk
    split
    · exact Safe.bind (Safe.fail Code.noConfusion _) fun a (ha : False) => ha.elim
    · rename_i hlen
      refine happly fun k' hk' => ?_
      rw [hk] at hk'
      cases hk'
      exact Decidable.not_not.1 hlen
  · rename_i hk
    exact happly fun k' hk' => by rw [hk] at hk'; cases hk'

/-! ## The recursive parts -/

/-- The items of a vector literal are typed and of one type, which is the hinted one if there is a
hint. -/
structure ItemsFit (hint : Option Ty) (r : Option Ty × List Value) : Prop where
  hinted : ∀ t ∈ hint, r.1 = some t
  vec : ∀ t ∈ r.1, Value.Typed (.vec t r.2)
  typed : ∀ v ∈ r.2, Value.Typed v

/-- What execution with a given amount of fuel does on sound machines. -/
structure SoundAt (budget : Budget) (n : Nat) : Prop where
  eval : ∀ hint e, (∀ t ∈ hint, Ty.Known t) → Safe Value.Typed (eval budget n hint e)
  items : ∀ hint es, (∀ t ∈ hint, Ty.Known t) → Safe (ItemsFit hint) (evalItems budget n hint es)
  args : ∀ hints es, (∀ t ∈ hints, Ty.Known t) →
    Safe (fun vs => vs.length = es.length ∧ ∀ v ∈ vs, Value.Typed v) (evalArgs budget n hints es)
  call : ∀ wanted name nameSpan args span,
    Safe (fun r => (wanted = true → r.isSome) ∧ ∀ u ∈ r, Value.Typed u)
      (call budget n wanted name nameSpan args span)
  stmt : ∀ c s, Stmt.Placed c s → Safe (Flow.Fits c) (stmt budget n s)
  block : ∀ c ss, Stmt.AllPlaced c ss → Safe (Flow.Fits c) (block budget n ss)
  rounds : ∀ c body span, Stmt.AllPlaced { c with inLoop := true } body →
    Safe (Flow.Fits c) (rounds budget n body span)

theorem known_of_mem_none : ∀ t ∈ (none : Option Ty), Ty.Known t := fun t ht => by cases ht

theorem known_of_mem_some {t : Ty} (h : t.Known) : ∀ u ∈ some t, Ty.Known u := by
  intro u hu
  cases hu
  exact h

theorem known_of_mem_itemHint {hint : Option Ty} (h : ∀ t ∈ hint, Ty.Known t) :
    ∀ t ∈ itemHint hint, Ty.Known t := by
  intro t ht
  cases hint with
  | none => cases ht
  | some u =>
    simp only [itemHint] at ht
    split at ht
    · rename_i hvec
      cases ht
      exact (h u rfl).elem hvec
    · cases ht

section Step

variable {budget : Budget} {n : Nat} (ih : SoundAt budget n)
include ih

theorem safe_eval (hint : Option Ty) (e : Expr) (hhint : ∀ t ∈ hint, Ty.Known t) :
    Safe Value.Typed (eval budget (n + 1) hint e) := by
  cases e with
  | int k span => rw [Exec.eval]; exact Safe.pure (.int k)
  | str s span => rw [Exec.eval]; exact Safe.pure (.str s)
  | bool b span => rw [Exec.eval]; exact Safe.pure (.bool b)
  | ident name span =>
    rw [Exec.eval]
    refine Safe.bind Safe.get fun m hm => ?_
    split
    · rename_i slot hslot
      exact Safe.pure (hm.slot? hslot).value
    · exact Safe.fail Code.noConfusion _
  | vec elems span =>
    rw [Exec.eval]
    refine Safe.bind (ih.items _ elems (known_of_mem_itemHint hhint)) fun r hr => ?_
    split
    · exact Safe.pure (hr.vec _ rfl)
    · exact Safe.fail Code.noConfusion _
  | neg operand span =>
    rw [Exec.eval]
    refine Safe.bind (ih.eval none operand known_of_mem_none) fun v _ => ?_
    split
    · exact Safe.pure (.int _)
    · exact Safe.mismatch _ _ _
  | binary op left right span =>
    rw [Exec.eval]
    refine Safe.bind (ih.eval none left known_of_mem_none) fun a ha => ?_
    refine Safe.bind (ih.eval (some a.type) right (known_of_mem_some ha.known)) fun b _ => ?_
    exact safe_operate op left right a b
  | call name nameSpan args span =>
    rw [Exec.eval]
    refine Safe.bind (ih.call true name nameSpan args span) fun r hr => ?_
    split
    · exact Safe.pure (hr.2 _ rfl)
    · -- A call whose value is wanted has one.
      simp at hr
  | index target place span =>
    rw [Exec.eval]
    refine Safe.bind (ih.eval none target known_of_mem_none) fun v hv => ?_
    split
    · refine Safe.bind (ih.eval none place known_of_mem_none) fun i _ => ?_
      split
      · exact safe_itemAt place hv _
      · exact Safe.mismatch _ _ _
    · exact Safe.mismatch _ _ _

theorem safe_evalItems (hint : Option Ty) (es : List Expr) (hhint : ∀ t ∈ hint, Ty.Known t) :
    Safe (ItemsFit hint) (evalItems budget (n + 1) hint es) := by
  cases es with
  | nil =>
    rw [Exec.evalItems]
    refine Safe.pure ⟨fun t ht => ht, fun t ht => ?_, fun v hv => by cases hv⟩
    exact .vec (hhint t ht) (fun v hv => by cases hv) (fun v hv => by cases hv)
  | cons e rest =>
    rw [Exec.evalItems]
    refine Safe.bind (ih.eval hint e hhint) fun v hv => ?_
    simp only
    split
    · exact Safe.fail Code.noConfusion _
    · rename_i htype
      have ht : v.type = hint.getD v.type := Decidable.not_not.1 htype
      have hknown : (hint.getD v.type).Known := by
        rw [← ht]
        exact hv.known
      -- From here on the type of the first item is the hint.
      refine Safe.bind (ih.items _ rest (known_of_mem_some hknown)) fun r hr => ?_
      have hr1 : r.1 = some (hint.getD v.type) := hr.hinted _ rfl
      have hrest := hr.vec _ hr1
      have htyped : ∀ w ∈ v :: r.2, Value.Typed w := by
        intro w hw
        rcases List.mem_cons.1 hw with rfl | hw
        · exact hv
        · exact hr.typed w hw
      refine Safe.pure ⟨fun t hmem => ?_, fun t hmem => ?_, htyped⟩
      · rw [hmem] at hr1
        exact hr1
      · have heq : t = hint.getD v.type := Option.some.inj (hmem.symm.trans hr1)
        subst heq
        refine .vec hrest.elem_known (fun w hw => ?_) htyped
        rcases List.mem_cons.1 hw with rfl | hw
        · exact ht
        · exact (hrest.of_mem hw).2

theorem safe_evalArgs (hints : List Ty) (es : List Expr) (hhints : ∀ t ∈ hints, Ty.Known t) :
    Safe (fun vs => vs.length = es.length ∧ ∀ v ∈ vs, Value.Typed v)
      (evalArgs budget (n + 1) hints es) := by
  cases es with
  | nil =>
    rw [Exec.evalArgs]
    exact Safe.pure ⟨rfl, fun v hv => by cases hv⟩
  | cons e rest =>
    rw [Exec.evalArgs]
    refine Safe.bind (ih.eval _ e fun t ht => hhints t (List.mem_of_mem_head? ht)) fun v hv => ?_
    refine Safe.bind (ih.args _ rest fun t ht => hhints t (List.mem_of_mem_tail ht)) fun vs hvs => ?_
    refine Safe.pure ⟨by simp [hvs.1], fun w hw => ?_⟩
    rcases List.mem_cons.1 hw with rfl | hw
    · exact hv
    · exact hvs.2 w hw

theorem safe_call (wanted : Bool) (name : Bytes) (nameSpan : Span) (args : List Expr)
    (span : Span) :
    Safe (fun r => (wanted = true → r.isSome) ∧ ∀ u ∈ r, Value.Typed u)
      (call budget (n + 1) wanted name nameSpan args span) := by
  rw [Exec.call]
  split
  · refine Safe.bind (ih.args [] args fun t ht => by cases ht) fun values _ => ?_
    exact safe_callBuiltin _ _ _ _ _ _
  · refine Safe.bind (safe_callee wanted name nameSpan span args.length) fun f hf => ?_
    obtain ⟨hf, hargc⟩ := hf
    refine Safe.bind (ih.args _ args hf.hints) fun values hvalues => ?_
    refine Safe.bind (safe_bindParams f.params args values [] hargc.symm
      (hvalues.1.trans hargc.symm) hvalues.2 Scope.typed_nil) fun own hown => ?_
    refine Safe.bind (safe_checkDepth budget span) fun _ _ => ?_
    -- The flow of a body fits its function: no loop of the caller is around it.
    refine Safe.bind (safe_inCall (ih.block (.body f.result) f.body hf.body) hown)
      fun flow hflow => ?_
    split
    · rename_i v
      obtain ⟨⟨result, hresult, hsome⟩, htyped⟩ := hflow
      cases hresult
      exact safe_returned wanted name span f.result v (fun h => hsome ▸ h) htyped
    · exact safe_returned wanted name span f.result none (fun h => by cases h)
        (fun u hu => by cases hu)

/-- An assignment stores a value of the recorded type, which evaluating the value did not change. -/
theorem safe_assign (c : Place) (name : Bytes) (value : Expr) (span : Span) :
    Safe (Flow.Fits c) (stmt budget (n + 1) (.assign name value span)) := by
  rw [Exec.stmt]
  refine Safe.bind (safe_tick budget _) fun _ _ m hm => ?_
  rw [Ends.bind_iff, Ends.get_iff]
  cases hslot : m.slot? name with
  | none => exact ⟨Code.noConfusion, hm⟩
  | some slot =>
    have hhint := known_of_mem_some (hm.slot? hslot).known
    simp only [Ends.bind_iff]
    -- The value is typed, and the types are as they were when it was looked at.
    have hvalue := (ih.eval (some slot.type) value hhint m hm).and
      ((frameAt budget n).eval (some slot.type) value m)
    refine hvalue.mono (fun v k hk => ?_) (fun _ _ h => h.1)
    obtain ⟨⟨hv, hk⟩, hframe⟩ := hk
    split
    · exact ⟨Code.noConfusion, hk⟩
    · rename_i htype
      have hrecorded : (k.slot? name).map Slot.type = some v.type := by
        rw [hframe.typeOf_slot? name, hslot, Decidable.not_not.1 htype]
        rfl
      exact ⟨trivial, hk.assign hv hrecorded⟩

/-- An element assignment stores a vector of the type the variable had before. -/
theorem safe_assignAt (c : Place) (name : Bytes) (place value : Expr) (span : Span) :
    Safe (Flow.Fits c) (stmt budget (n + 1) (.assignAt name place value span)) := by
  rw [Exec.stmt]
  refine Safe.bind (safe_tick budget _) fun _ _ m hm => ?_
  rw [Ends.bind_iff, Ends.get_iff]
  cases hslot : m.slot? name with
  | none => exact ⟨Code.noConfusion, hm⟩
  | some slot =>
    obtain ⟨type, held⟩ := slot
    cases held with
    | int _ | str _ | bool _ => exact ⟨Code.noConfusion, hm⟩
    | vec elem items =>
      have hs := hm.slot? hslot
      have hhint := known_of_mem_some hs.value.elem_known
      simp only [Ends.bind_iff]
      -- Three parts run before the vector is stored, and none of them changes a type.
      have hplace := (ih.eval none place known_of_mem_none m hm).and
        ((frameAt budget n).eval none place m)
      refine hplace.mono (fun i k hk => ?_) (fun _ _ h => h.1)
      obtain ⟨⟨-, hk⟩, hframe⟩ := hk
      cases i with
      | str _ | bool _ | vec _ _ => exact ⟨Code.noConfusion, hk⟩
      | int j =>
        simp only [Ends.bind_iff]
        have hvalue := (ih.eval (some elem) value hhint k hk).and
          ((frameAt budget n).eval (some elem) value k)
        refine hvalue.mono (fun v l hl => ?_) (fun _ _ h => h.1)
        obtain ⟨⟨hv, hl⟩, hframe'⟩ := hl
        have hset := (safe_setItem place value hs.value j hv l hl).and
          (keepsTypes_setItem place value elem items j v l)
        refine hset.mono (fun w o ho => ?_) (fun _ _ h => h.1)
        obtain ⟨⟨⟨hw, hwtype⟩, ho⟩, hframe''⟩ := ho
        have hrecorded : (o.slot? name).map Slot.type = some w.type := by
          rw [((hframe.trans hframe').trans hframe'').typeOf_slot? name, hslot, hwtype]
          exact congrArg some hs.agrees.symm
        exact ⟨trivial, ho.assign hw hrecorded⟩

theorem safe_stmt (c : Place) (s : Stmt) (hs : s.Placed c) :
    Safe (Flow.Fits c) (stmt budget (n + 1) s) := by
  cases s with
  | letVar name nameSpan type value span =>
    have hdeclare {v : Value} (hv : v.Typed) :
        Safe (Flow.Fits c) (do modify (Machine.declare name v); return Flow.next) :=
      Safe.bind (Safe.modify fun m hm => hm.declare name hv) fun _ _ => Safe.pure trivial
    rw [Exec.stmt]
    refine Safe.bind (safe_tick budget _) fun _ _ => ?_
    refine Safe.bind (ih.eval type value hs) fun v hv => ?_
    simp only
    split
    · split
      · -- A value of another type than the declared one stops before the declaration.
        exact Safe.bind (Safe.fail Code.noConfusion _) fun a (ha : False) => ha.elim
      · exact hdeclare hv
    · exact hdeclare hv
  | assign name value span => exact safe_assign ih c name value span
  | assignAt name place value span => exact safe_assignAt ih c name place value span
  | call name nameSpan args callSpan span =>
    rw [Exec.stmt]
    refine Safe.bind (safe_tick budget _) fun _ _ => ?_
    exact Safe.bind (ih.call false name nameSpan args callSpan) fun _ _ => Safe.pure trivial
  | when cond body bodySpan span =>
    rw [Exec.stmt]
    refine Safe.bind (safe_tick budget _) fun _ _ => ?_
    refine Safe.bind (ih.eval none cond known_of_mem_none) fun v _ => ?_
    split
    · exact ih.block c body hs
    · exact Safe.pure trivial
    · exact Safe.mismatch _ _ _
  | ifElse cond body bodySpan other otherSpan span =>
    rw [Exec.stmt]
    refine Safe.bind (safe_tick budget _) fun _ _ => ?_
    refine Safe.bind (ih.eval none cond known_of_mem_none) fun v _ => ?_
    split
    · exact ih.block c body hs.1
    · exact ih.block c other hs.2
    · exact Safe.mismatch _ _ _
  | loop body bodySpan span =>
    rw [Exec.stmt]
    exact Safe.bind (safe_tick budget _) fun _ _ => ih.rounds c body span hs
  | stop span =>
    rw [Exec.stmt]
    exact Safe.bind (safe_tick budget _) fun _ _ => Safe.pure hs
  | ret value span =>
    cases value with
    | none =>
      rw [Exec.stmt]
      refine Safe.bind (safe_tick budget _) fun _ _ => Safe.pure ⟨?_, fun u hu => by cases hu⟩
      exact hs
    | some value =>
      rw [Exec.stmt]
      refine Safe.bind (safe_tick budget _) fun _ _ => ?_
      refine Safe.bind (ih.eval none value known_of_mem_none) fun v hv => ?_
      refine Safe.pure ⟨?_, fun u hu => ?_⟩
      · exact hs
      · cases hu; exact hv
  | exit value span =>
    rw [Exec.stmt]
    refine Safe.bind (safe_tick budget _) fun _ _ => ?_
    refine Safe.bind (ih.eval none value known_of_mem_none) fun v _ => ?_
    split
    · exact Safe.throw trivial
    · exact Safe.mismatch _ _ _
  | fn name params result body bodySpan span =>
    rw [Exec.stmt]
    refine Safe.bind (safe_tick budget _) fun _ _ => ?_
    split
    · exact Safe.fail Code.noConfusion _
    · rename_i hname
      refine Safe.bind (Safe.modify fun m hm => ?_) fun _ _ => Safe.pure trivial
      exact hm.define hname ⟨hs.1, hs.2.1, hs.2.2⟩

theorem safe_block (c : Place) (ss : List Stmt) (hs : Stmt.AllPlaced c ss) :
    Safe (Flow.Fits c) (block budget (n + 1) ss) := by
  cases ss with
  | nil => rw [Exec.block]; exact Safe.pure trivial
  | cons s rest =>
    rw [Exec.block]
    refine Safe.bind (ih.stmt c s hs.1) fun flow hflow => ?_
    split
    · exact ih.block c rest hs.2
    · exact Safe.pure hflow

/-- A loop takes the `break`s of its body and hands on the `return`s. -/
theorem safe_rounds (c : Place) (body : List Stmt) (span : Span)
    (hs : Stmt.AllPlaced { c with inLoop := true } body) :
    Safe (Flow.Fits c) (rounds budget (n + 1) body span) := by
  rw [Exec.rounds]
  refine Safe.bind (ih.block _ body hs) fun flow hflow => ?_
  split
  · exact Safe.pure trivial
  · exact Safe.pure hflow
  · exact Safe.bind (safe_tick budget span) fun _ _ => ih.rounds c body span hs

end Step

/-- Execution is sound with every amount of fuel. -/
theorem soundAt (budget : Budget) (n : Nat) : SoundAt budget n := by
  induction n with
  | zero =>
    have idle {α : Type} {post : α → Prop} {x : Exec α} (hx : x = throw .outOfFuel) :
        Safe post x := by
      rw [hx]
      exact Safe.throw trivial
    constructor
    · intro hint e _; exact idle (by rw [Exec.eval])
    · intro hint es _; exact idle (by rw [Exec.evalItems])
    · intro hints es _; exact idle (by rw [Exec.evalArgs])
    · intro wanted name nameSpan args span; exact idle (by rw [Exec.call])
    · intro c s _; exact idle (by rw [Exec.stmt])
    · intro c ss _; exact idle (by rw [Exec.block])
    · intro c body span _; exact idle (by rw [Exec.rounds])
  | succ n ih =>
    exact ⟨safe_eval ih, safe_evalItems ih, safe_evalArgs ih, safe_call ih, safe_stmt ih,
      safe_block ih, safe_rounds ih⟩

end Exec
end Scriptlet
