import Scriptlet.Proofs.Machine.Moment
import Scriptlet.Proofs.Program.Legibility
import Scriptlet.Proofs.Value.Literal

/-!
# Legibility: strings stay well formed

A machine is legible if the strings in its variables and in its functions are well formed, and so
is what it has written and what it has yet to read. Strings are made from those of the program and
from lines of the input, put together by sums and by printing, and never cut. So execution keeps a
machine legible, and the strings it hands back are well formed.
-/

namespace Scriptlet

/-! ## Values -/

theorem ascii_signedDecimal (i : Int) : (signedDecimal i).Ascii := by
  have hdecimal (n : Nat) : (decimal n).Ascii := Lexer.ascii_of_digits (digits_decimal n)
  unfold signedDecimal
  split
  · intro b hb
    rcases List.mem_cons.1 hb with rfl | hb
    · decide
    · exact hdecimal _ b hb
  · exact hdecimal _

mutual

/-- The strings in a value. -/
def Value.texts : Value → List Bytes
  | .int _ | .bool _ => []
  | .str s => [s]
  | .vec _ items => Value.allTexts items

/-- The strings in some values. -/
def Value.allTexts : List Value → List Bytes
  | [] => []
  | v :: rest => v.texts ++ Value.allTexts rest

end

namespace Value

/-- The strings in the value are well formed. -/
def Legible (v : Value) : Prop := ∀ s ∈ v.texts, isUtf8 s = true

variable {v w : Value} {items : List Value} {elem : Ty}

theorem mem_allTexts {s : Bytes} : s ∈ allTexts items ↔ ∃ v ∈ items, s ∈ v.texts := by
  induction items with
  | nil => exact ⟨nofun, nofun⟩
  | cons v rest ih => rw [allTexts, List.mem_append, ih, List.exists_mem_cons_iff]

theorem legible_int (n : Int64) : (Value.int n).Legible := nofun

theorem legible_bool (b : Bool) : (Value.bool b).Legible := nofun

theorem legible_of_mem_none : ∀ v ∈ (none : Option Value), v.Legible := nofun

theorem legible_str_iff {s : Bytes} : (Value.str s).Legible ↔ isUtf8 s = true :=
  List.forall_mem_singleton

theorem legible_vec_iff : (Value.vec elem items).Legible ↔ ∀ v ∈ items, v.Legible := by
  constructor
  · intro h v hv s hs
    exact h s (mem_allTexts.2 ⟨v, hv, hs⟩)
  · intro h s hs
    obtain ⟨v, hv, hmem⟩ := mem_allTexts.1 hs
    exact h v hv s hmem

mutual

/-- A value with well-formed strings is printed as a well-formed text. -/
theorem isUtf8_render : (v : Value) → v.Legible → isUtf8 v.render = true
  | .int n, _ => by
    rw [render]
    exact isUtf8_of_ascii (ascii_signedDecimal n.toInt)
  | .bool true, _ => rfl
  | .bool false, _ => rfl
  | .str s, h => by
    rw [render]
    exact legible_str_iff.1 h
  | .vec elem items, h => by
    rw [render]
    have hitems : isUtf8 (renderItems items) = true :=
      isUtf8_renderItems items (legible_vec_iff.1 h)
    exact isUtf8_append (s := [byte '[']) rfl (isUtf8_append hitems rfl)

theorem isUtf8_renderItems : (items : List Value) → (∀ v ∈ items, v.Legible) →
    isUtf8 (renderItems items) = true
  | [], _ => rfl
  | [v], h => by
    rw [renderItems]
    exact isUtf8_render v (h v List.mem_cons_self)
  | v :: w :: rest, h => by
    rw [renderItems]
    have hrest : isUtf8 (renderItems (w :: rest)) = true :=
      isUtf8_renderItems (w :: rest) fun u hu => h u (List.mem_cons_of_mem v hu)
    have hfirst : isUtf8 v.render = true := isUtf8_render v (h v List.mem_cons_self)
    exact isUtf8_append hfirst (isUtf8_append (s := utf8 ", ") (by decide) hrest)

end

theorem isUtf8_printed (h : ∀ v ∈ items, v.Legible) : isUtf8 (Builtin.printed items) = true := by
  induction items with
  | nil => rfl
  | cons v rest ih =>
    have hfirst : isUtf8 v.render = true := isUtf8_render v (h v List.mem_cons_self)
    exact isUtf8_append hfirst (ih fun w hw => h w (List.mem_cons_of_mem v hw))

end Value

namespace BinOp

variable {a b v : Value}

/-- A sum of strings is their texts put together. -/
theorem legible_sum (ha : a.Legible) (hb : b.Legible) (h : sum a b = .ok v) : v.Legible := by
  unfold sum at h
  split at h
  · split at h
    · cases h
      exact Value.legible_int _
    · cases h
  · split at h
    · cases h
      rw [Value.legible_str_iff] at ha hb ⊢
      exact isUtf8_append ha hb
    · cases h
  · cases h

theorem legible_arithmetic {op : Int64 → Int64 → Except (Side × Fault) Int64}
    (h : arithmetic op a b = .ok v) : v.Legible := by
  unfold arithmetic at h
  split at h
  · rename_i x
    split at h
    · rename_i y
      cases hop : op x y with
      | error fault =>
        rw [hop] at h
        cases h
      | ok n =>
        rw [hop] at h
        cases h
        exact Value.legible_int n
    · cases h
  · cases h

theorem legible_comparison {accepts : Ordering → Bool} (h : comparison accepts a b = .ok v) :
    v.Legible := by
  unfold comparison at h
  split at h
  · cases h
    exact Value.legible_bool _
  · cases h

theorem legible_apply {op : BinOp} (ha : a.Legible) (hb : b.Legible) (h : op.apply a b = .ok v) :
    v.Legible := by
  cases op with
  | add => exact legible_sum ha hb h
  | sub | mul | div | pow => exact legible_arithmetic h
  | eq | ne | gt | lt | ge | le => exact legible_comparison h

end BinOp

/-! ## Machines -/

namespace Scope

/-- The strings that the variables hold are well formed. -/
def Legible (s : Scope) : Prop := ∀ b ∈ s, b.2.value.Legible

theorem legible_nil : Legible [] := nofun

variable {s : Scope} {name : Bytes}

theorem Legible.find? (h : s.Legible) {slot : Slot} (hs : s.find? name = some slot) :
    slot.value.Legible := by
  induction s with
  | nil => cases hs
  | cons b rest ih =>
    unfold Scope.find? at hs
    split at hs
    · cases hs
      exact h b List.mem_cons_self
    · exact ih (fun c hc => h c (List.mem_cons_of_mem b hc)) hs

theorem Legible.declare (h : s.Legible) (name : Bytes) {slot : Slot} (hs : slot.value.Legible) :
    (s.declare name slot).Legible := by
  induction s with
  | nil =>
    intro b hb
    rw [Scope.declare, List.mem_singleton] at hb
    rw [hb]
    exact hs
  | cons c rest ih =>
    have hfirst : c.2.value.Legible := h c List.mem_cons_self
    have hrest : Legible rest := fun b hb => h b (List.mem_cons_of_mem c hb)
    unfold Scope.declare
    split
    · exact List.forall_mem_cons.2 ⟨hs, hrest⟩
    · exact List.forall_mem_cons.2 ⟨hfirst, ih hrest⟩

theorem Legible.assign (h : s.Legible) (name : Bytes) {v : Value} (hv : v.Legible) :
    (s.assign name v).Legible := by
  induction s with
  | nil => exact h
  | cons c rest ih =>
    have hfirst : c.2.value.Legible := h c List.mem_cons_self
    have hrest : Legible rest := fun b hb => h b (List.mem_cons_of_mem c hb)
    unfold Scope.assign
    split
    · exact List.forall_mem_cons.2 ⟨hv, hrest⟩
    · exact List.forall_mem_cons.2 ⟨hfirst, ih hrest⟩

end Scope

namespace Machine

/-- The strings in the variables and in the functions are well formed, and so are what was written
and what is still to be read. -/
structure Legible (m : Machine) : Prop where
  globals : m.globals.Legible
  locals : ∀ own ∈ m.locals, own.Legible
  functions : ∀ b ∈ m.functions, Stmt.AllLegible b.2.body
  input : m.input.Legible
  output : ∀ c ∈ m.output.chunks, isUtf8 c = true

namespace Legible

variable {m : Machine} {name : Bytes}

/-- The counters do not matter. -/
theorem count (h : m.Legible) (steps : Nat) : Legible { m with steps } :=
  ⟨h.globals, h.locals, h.functions, h.input, h.output⟩

theorem slot? (h : m.Legible) {slot : Slot} (hs : m.slot? name = some slot) :
    slot.value.Legible := by
  unfold Machine.slot? at hs
  split at hs
  · exact h.globals.find? hs
  · rename_i own hown
    split at hs
    · rename_i s hfind
      cases hs
      exact (h.locals own hown).find? hfind
    · exact h.globals.find? hs

theorem function? (h : m.Legible) {f : Function} (hf : m.function? name = some f) :
    Stmt.AllLegible f.body := by
  unfold Machine.function? at hf
  obtain ⟨l, r, hlr, -⟩ := List.lookup_eq_some_iff.1 hf
  exact h.functions (name, f) (by rw [hlr]; simp)

theorem declare (h : m.Legible) (name : Bytes) {v : Value} (hv : v.Legible) :
    (m.declare name v).Legible := by
  unfold Machine.declare
  split
  · exact ⟨h.globals.declare name hv, h.locals, h.functions, h.input, h.output⟩
  · rename_i own hown
    refine ⟨h.globals, fun own' hown' => ?_, h.functions, h.input, h.output⟩
    cases hown'
    exact (h.locals own hown).declare name hv

theorem assign (h : m.Legible) (name : Bytes) {v : Value} (hv : v.Legible) :
    (m.assign name v).Legible := by
  unfold Machine.assign
  split
  · exact ⟨h.globals.assign name hv, h.locals, h.functions, h.input, h.output⟩
  · rename_i own hown
    split
    · refine ⟨h.globals, fun own' hown' => ?_, h.functions, h.input, h.output⟩
      cases hown'
      exact (h.locals own hown).assign name hv
    · exact ⟨h.globals.assign name hv, h.locals, h.functions, h.input, h.output⟩

theorem define (h : m.Legible) (name : Bytes) {f : Function} (hf : Stmt.AllLegible f.body) :
    (m.define name f).Legible := by
  refine ⟨h.globals, h.locals, fun b hb => ?_, h.input, h.output⟩
  rcases List.mem_cons.1 hb with rfl | hb
  · exact hf
  · exact h.functions b (List.mem_filter.1 hb).1

theorem enter (h : m.Legible) {own : Scope} (hown : own.Legible) (depth : Nat) :
    Legible { m with locals := some own, depth } :=
  ⟨h.globals, fun own' hown' => by cases hown'; exact hown, h.functions, h.input, h.output⟩

/-- Back in the caller, the machine is legible as it was there. -/
theorem leave (h : m.Legible) {own : Option Scope} (hown : ∀ s ∈ own, s.Legible) (depth : Nat) :
    Legible { m with locals := own, depth } :=
  ⟨h.globals, hown, h.functions, h.input, h.output⟩

theorem write (h : m.Legible) {text : Bytes} (htext : isUtf8 text = true) :
    Legible { m with output := (m.output.write text).2 } := by
  refine ⟨h.globals, h.locals, h.functions, h.input, ?_⟩
  unfold Sink.write
  dsimp only
  split
  · exact h.output
  · exact List.forall_mem_cons.2 ⟨htext, h.output⟩

theorem read (h : m.Legible) : Legible { m with input := m.input.readLine.2 } :=
  ⟨h.globals, h.locals, h.functions, (Input.isUtf8_readLine h.input).2, h.output⟩

end Legible
end Machine

/-! ## Actions -/

namespace Exec

variable {α β : Type} {post : α → Prop} {post' : β → Prop}

/-- From a legible machine the action gives only what satisfies `post`, and however it ends, it
leaves a legible machine. -/
def Legibly (post : α → Prop) (x : Exec α) : Prop :=
  ∀ m : Machine, m.Legible → Ends (x m) (fun a n => post a ∧ n.Legible) (fun _ n => n.Legible)

namespace Legibly

theorem pure {a : α} (h : post a) : Legibly post (pure a : Exec α) := fun _ hm => ⟨h, hm⟩

theorem throw (halt : Halt) : Legibly post (throw halt : Exec α) := fun _ hm => hm

theorem fail (fault : Fault) (span : Span) : Legibly post (fail fault span : Exec α) := throw _

theorem mismatch (need : Need) (got : Value) (span : Span) :
    Legibly post (mismatch need got span : Exec α) := throw _

/-- The machine an action looks at is the legible one it runs on. -/
theorem get : Legibly Machine.Legible (get : Exec Machine) := fun _ hm => ⟨hm, hm⟩

theorem modify {f : Machine → Machine} (h : ∀ m : Machine, m.Legible → (f m).Legible) :
    Legibly (fun _ => True) (modify f : Exec PUnit) := fun m hm => ⟨trivial, h m hm⟩

theorem bind {x : Exec α} {f : α → Exec β} (hx : Legibly post x)
    (hf : ∀ a, post a → Legibly post' (f a)) : Legibly post' (x >>= f) := by
  intro m hm
  rw [Ends.bind_iff]
  exact (hx m hm).mono (fun a n ha => hf a ha.1 n ha.2) (fun _ _ h => h)

/-- Nothing comes after a failure. -/
theorem fail_bind (fault : Fault) (span : Span) (f : α → Exec β) :
    Legibly post' (Exec.fail fault span >>= f : Exec β) :=
  have hfail : Legibly (fun _ => False) (Exec.fail fault span : Exec α) := fail _ _
  bind hfail fun _ h => h.elim

theorem of_ok {x : Exec α} (h : Legibly post x) {m k : Machine} (hm : m.Legible) {a : α}
    (hx : x m = .ok a k) : post a ∧ k.Legible := by
  have hends := h m hm
  exact hends.of_ok hx

end Legibly

theorem legibly_tick (budget : Budget) (span : Span) :
    Legibly (fun _ => True) (tick budget span) := by
  refine Legibly.bind (Legibly.modify fun m hm => hm.count _) fun _ _ => ?_
  refine Legibly.bind Legibly.get fun m _ => ?_
  split
  · exact Legibly.fail _ _
  · split
    · split
      · exact Legibly.fail _ _
      · exact Legibly.pure trivial
    · exact Legibly.pure trivial

theorem legibly_write (span : Span) {text : Bytes} (htext : isUtf8 text = true) :
    Legibly (fun _ => True) (write span text) := by
  intro m hm
  have hn := hm.write htext
  unfold write
  rw [Ends.bind_iff, Ends.get_iff]
  generalize m.output.write text = answer at hn
  obtain ⟨taken, sink⟩ := answer
  rw [Ends.bind_iff, Ends.modify_iff]
  cases taken with
  | ok _ => exact ⟨trivial, hn⟩
  | error reason => exact hn

/-- Lines that are read are well formed. -/
theorem legibly_readLine (span : Span) :
    Legibly (fun line => isUtf8 line = true) (readLine span) := by
  intro m hm
  obtain ⟨hline, -⟩ := Input.isUtf8_readLine hm.input
  have hn := hm.read
  unfold readLine
  rw [Ends.bind_iff, Ends.get_iff]
  generalize m.input.readLine = answer at hline hn
  obtain ⟨outcome, left⟩ := answer
  rw [Ends.bind_iff, Ends.modify_iff]
  cases outcome with
  | ok line => exact ⟨hline line rfl, hn⟩
  | error reason => exact hn

theorem legibly_inCall {body : Exec α} (h : Legibly post body) {own : Scope}
    (hown : own.Legible) : Legibly post (inCall own body) := by
  intro m hm
  have hbody := h _ (hm.enter hown (m.depth + 1))
  unfold inCall
  cases hr : body { m with locals := some own, depth := m.depth + 1 } with
  | ok a n =>
    obtain ⟨ha, hn⟩ := hbody.of_ok hr
    exact ⟨ha, hn.leave hm.locals _⟩
  | error e n => exact (hbody.of_error hr).leave hm.locals _

theorem legibly_bindParams (params : List Param) (exprs : List Expr) (values : List Value)
    (own : Scope) (hvalues : ∀ v ∈ values, v.Legible) (hown : own.Legible) :
    Legibly Scope.Legible (bindParams params exprs values own) := by
  fun_induction bindParams params exprs values own with
  | case1 exprs values own => exact Legibly.pure hown
  | case2 p params e exprs v values own h ih =>
    refine ih (fun w hw => hvalues w (List.mem_cons_of_mem v hw)) ?_
    exact hown.declare p.name (hvalues v List.mem_cons_self)
  | case3 p params e exprs v values own h => exact Legibly.fail _ _
  | case4 p params exprs values own h => exact Legibly.throw _

theorem legibly_operate (op : BinOp) (left right : Expr) {a b : Value} (ha : a.Legible)
    (hb : b.Legible) : Legibly Value.Legible (operate op left right a b) := by
  unfold operate
  split
  · rename_i v hv
    exact Legibly.pure (BinOp.legible_apply ha hb hv)
  · exact Legibly.fail _ _
  · exact Legibly.fail _ _

theorem legibly_itemAt (place : Expr) {items : List Value} (h : ∀ v ∈ items, v.Legible)
    (i : Int64) : Legibly Value.Legible (itemAt place items i) := by
  unfold itemAt
  split
  · exact Legibly.fail _ _
  · split
    · exact Legibly.fail _ _
    · split
      · rename_i v hv
        exact Legibly.pure (h v (List.mem_of_getElem? hv))
      · exact Legibly.throw _

theorem legibly_setItem (place from_ : Expr) (elem : Ty) {items : List Value}
    (h : ∀ v ∈ items, v.Legible) (i : Int64) {v : Value} (hv : v.Legible) :
    Legibly Value.Legible (setItem place from_ elem items i v) := by
  unfold setItem
  split
  · exact Legibly.fail _ _
  split
  · exact Legibly.fail _ _
  split
  · refine Legibly.pure (Value.legible_vec_iff.2 fun w hw => ?_)
    rcases List.mem_append.1 hw with hw | hw
    · exact h w hw
    · rw [List.mem_singleton.1 hw]
      exact hv
  · split
    · rename_i changed hchanged
      simp only [Value.with?] at hchanged
      split at hchanged
      · cases hchanged
        refine Legibly.pure (Value.legible_vec_iff.2 fun w hw => ?_)
        rcases List.mem_or_eq_of_mem_set hw with hw | rfl
        · exact h w hw
        · exact hv
      · cases hchanged
    · exact Legibly.throw _

theorem legibly_returned (wanted : Bool) (name : Bytes) (span : Span) (result : Option Ty)
    {v : Option Value} (hv : ∀ u ∈ v, u.Legible) :
    Legibly (fun r => ∀ u ∈ r, u.Legible) (returned wanted name span result v) := by
  unfold returned
  split
  · split
    · exact Legibly.fail _ _
    · exact Legibly.pure nofun
  · split
    · exact Legibly.throw _
    · split
      · exact Legibly.pure hv
      · exact Legibly.fail _ _

theorem legibly_callee (wanted : Bool) (name : Bytes) (nameSpan span : Span) (argc : Nat) :
    Legibly (fun f => Stmt.AllLegible f.body) (callee wanted name nameSpan span argc) := by
  refine Legibly.bind Legibly.get fun m hm => ?_
  split
  · exact Legibly.fail _ _
  · rename_i f hf
    split
    · exact Legibly.fail _ _
    · split
      · exact Legibly.fail _ _
      · exact Legibly.pure (hm.function? hf)

theorem legibly_checkDepth (budget : Budget) (span : Span) :
    Legibly (fun _ => True) (checkDepth budget span) := by
  refine Legibly.bind Legibly.get fun m _ => ?_
  split
  · exact Legibly.fail _ _
  · exact Legibly.pure trivial

/-- Builtins write well-formed texts, and give well-formed strings. -/
theorem legibly_apply (f : Builtin) (span argSpan : Span) {args : List Value}
    (h : ∀ v ∈ args, v.Legible) :
    Legibly (fun r => ∀ u ∈ r, u.Legible) (f.apply span argSpan args) := by
  have hsome {v : Value} (hv : v.Legible) : ∀ u ∈ some v, u.Legible := fun u hu => by
    cases hu
    exact hv
  have hprinted : isUtf8 (Builtin.printed args) = true := Value.isUtf8_printed h
  unfold Builtin.apply
  split
  · exact Legibly.bind (legibly_write _ hprinted) fun _ _ => Legibly.pure nofun
  · exact Legibly.bind (legibly_write _ (isUtf8_append hprinted (by decide)))
      fun _ _ => Legibly.pure nofun
  · refine Legibly.bind (legibly_readLine _) fun line hline => Legibly.pure ?_
    exact hsome (Value.legible_str_iff.2 hline)
  · split
    · exact Legibly.pure (hsome (Value.legible_int _))
    · exact Legibly.fail _ _
  · split
    · exact Legibly.pure (hsome (Value.legible_bool _))
    · exact Legibly.fail _ _
  · rename_i v
    refine Legibly.pure (hsome (Value.legible_str_iff.2 ?_))
    exact Value.isUtf8_render v (h v List.mem_cons_self)
  · split
    · exact Legibly.pure (hsome (Value.legible_int _))
    · exact Legibly.mismatch _ _ _
  · exact Legibly.throw _

theorem legibly_callBuiltin (wanted : Bool) (f : Builtin) (name : Bytes) (span : Span)
    (args : List Expr) {values : List Value} (h : ∀ v ∈ values, v.Legible) :
    Legibly (fun r => ∀ u ∈ r, u.Legible) (callBuiltin wanted f name span args values) := by
  have happly : Legibly (fun r => ∀ u ∈ r, u.Legible) (do
      let v ← f.apply span ((args.head?.map Expr.span).getD span) values
      if wanted && v.isNone then fail (.noValue name) span else return v) := by
    refine Legibly.bind (legibly_apply f _ _ h) fun v hv => ?_
    split
    · exact Legibly.fail _ _
    · exact Legibly.pure hv
  unfold callBuiltin
  split
  · split
    · exact Legibly.fail_bind _ _ _
    · exact happly
  · exact happly

/-! ## The recursive parts -/

/-- What execution with a given amount of fuel does on legible machines. -/
structure LegibleAt (budget : Budget) (n : Nat) : Prop where
  eval : ∀ hint e, e.Legible → Legibly Value.Legible (eval budget n hint e)
  items : ∀ hint es, Expr.AllLegible es →
    Legibly (fun r => ∀ v ∈ r.2, Value.Legible v) (evalItems budget n hint es)
  args : ∀ hints es, Expr.AllLegible es →
    Legibly (fun vs => ∀ v ∈ vs, Value.Legible v) (evalArgs budget n hints es)
  call : ∀ wanted name nameSpan args span, Expr.AllLegible args →
    Legibly (fun r => ∀ v ∈ r, Value.Legible v) (call budget n wanted name nameSpan args span)
  stmt : ∀ s, s.Legible →
    Legibly (fun flow => ∀ v ∈ flow.value?, Value.Legible v) (stmt budget n s)
  block : ∀ ss, Stmt.AllLegible ss →
    Legibly (fun flow => ∀ v ∈ flow.value?, Value.Legible v) (block budget n ss)
  rounds : ∀ body span, Stmt.AllLegible body →
    Legibly (fun flow => ∀ v ∈ flow.value?, Value.Legible v) (rounds budget n body span)

section Step

variable {budget : Budget} {n : Nat} (ih : LegibleAt budget n)
include ih

theorem legibly_eval (hint : Option Ty) (e : Expr) (he : e.Legible) :
    Legibly Value.Legible (eval budget (n + 1) hint e) := by
  cases e with
  | int k span => rw [Exec.eval]; exact Legibly.pure (Value.legible_int k)
  | str s span => rw [Exec.eval]; exact Legibly.pure (Value.legible_str_iff.2 he)
  | bool b span => rw [Exec.eval]; exact Legibly.pure (Value.legible_bool b)
  | ident name span =>
    rw [Exec.eval]
    refine Legibly.bind Legibly.get fun m hm => ?_
    split
    · rename_i slot hslot
      exact Legibly.pure (hm.slot? hslot)
    · exact Legibly.fail _ _
  | vec elems span =>
    rw [Exec.eval]
    refine Legibly.bind (ih.items _ elems he) fun r hr => ?_
    split
    · exact Legibly.pure (Value.legible_vec_iff.2 hr)
    · exact Legibly.fail _ _
  | neg operand span =>
    rw [Exec.eval]
    refine Legibly.bind (ih.eval none operand he) fun v _ => ?_
    split
    · exact Legibly.pure (Value.legible_int _)
    · exact Legibly.mismatch _ _ _
  | binary op left right span =>
    rw [Exec.eval]
    refine Legibly.bind (ih.eval none left he.1) fun a ha => ?_
    refine Legibly.bind (ih.eval (some a.type) right he.2) fun b hb => ?_
    exact legibly_operate op left right ha hb
  | call name nameSpan args span =>
    rw [Exec.eval]
    refine Legibly.bind (ih.call true name nameSpan args span he.2) fun r hr => ?_
    split
    · exact Legibly.pure (hr _ rfl)
    · exact Legibly.throw _
  | index target place span =>
    rw [Exec.eval]
    refine Legibly.bind (ih.eval none target he.1) fun v hv => ?_
    split
    · refine Legibly.bind (ih.eval none place he.2) fun i _ => ?_
      split
      · exact legibly_itemAt place (Value.legible_vec_iff.1 hv) _
      · exact Legibly.mismatch _ _ _
    · exact Legibly.mismatch _ _ _

theorem legibly_evalItems (hint : Option Ty) (es : List Expr) (hes : Expr.AllLegible es) :
    Legibly (fun r => ∀ v ∈ r.2, Value.Legible v) (evalItems budget (n + 1) hint es) := by
  cases es with
  | nil =>
    rw [Exec.evalItems]
    exact Legibly.pure (List.forall_mem_nil _)
  | cons e rest =>
    rw [Exec.evalItems]
    refine Legibly.bind (ih.eval hint e hes.1) fun v hv => ?_
    dsimp only
    split
    · exact Legibly.fail _ _
    · refine Legibly.bind (ih.items _ rest hes.2) fun r hr => ?_
      exact Legibly.pure (List.forall_mem_cons.2 ⟨hv, hr⟩)

theorem legibly_evalArgs (hints : List Ty) (es : List Expr) (hes : Expr.AllLegible es) :
    Legibly (fun vs => ∀ v ∈ vs, Value.Legible v) (evalArgs budget (n + 1) hints es) := by
  cases es with
  | nil =>
    rw [Exec.evalArgs]
    exact Legibly.pure (List.forall_mem_nil _)
  | cons e rest =>
    rw [Exec.evalArgs]
    refine Legibly.bind (ih.eval _ e hes.1) fun v hv => ?_
    refine Legibly.bind (ih.args _ rest hes.2) fun vs hvs => ?_
    exact Legibly.pure (List.forall_mem_cons.2 ⟨hv, hvs⟩)

theorem legibly_call (wanted : Bool) (name : Bytes) (nameSpan : Span) (args : List Expr)
    (span : Span) (hargs : Expr.AllLegible args) :
    Legibly (fun r => ∀ v ∈ r, Value.Legible v)
      (call budget (n + 1) wanted name nameSpan args span) := by
  rw [Exec.call]
  split
  · refine Legibly.bind (ih.args [] args hargs) fun values hvalues => ?_
    exact legibly_callBuiltin _ _ _ _ _ hvalues
  · refine Legibly.bind (legibly_callee wanted name nameSpan span args.length) fun f hf => ?_
    refine Legibly.bind (ih.args _ args hargs) fun values hvalues => ?_
    refine Legibly.bind (legibly_bindParams f.params args values [] hvalues Scope.legible_nil)
      fun own hown => ?_
    refine Legibly.bind (legibly_checkDepth budget span) fun _ _ => ?_
    refine Legibly.bind (legibly_inCall (ih.block f.body hf) hown) fun flow hflow => ?_
    split
    · exact legibly_returned wanted name span f.result hflow
    · exact legibly_returned wanted name span f.result Value.legible_of_mem_none

theorem legibly_assignAt (name : Bytes) (place value : Expr) (span : Span)
    (hplace : place.Legible) (hvalue : value.Legible) :
    Legibly (fun flow => ∀ v ∈ flow.value?, Value.Legible v)
      (stmt budget (n + 1) (.assignAt name place value span)) := by
  rw [Exec.stmt]
  refine Legibly.bind (legibly_tick budget _) fun _ _ => ?_
  refine Legibly.bind Legibly.get fun m hm => ?_
  split
  · exact Legibly.fail _ _
  · rename_i type elem items hslot
    have hitems : ∀ v ∈ items, v.Legible := Value.legible_vec_iff.1 (hm.slot? hslot)
    refine Legibly.bind (ih.eval none place hplace) fun i _ => ?_
    split
    · refine Legibly.bind (ih.eval (some elem) value hvalue) fun v hv => ?_
      refine Legibly.bind (legibly_setItem place value elem hitems _ hv) fun changed hchanged => ?_
      refine Legibly.bind (Legibly.modify fun m hm => hm.assign name hchanged) fun _ _ => ?_
      exact Legibly.pure Value.legible_of_mem_none
    · exact Legibly.mismatch _ _ _
  · exact Legibly.mismatch _ _ _

theorem legibly_stmt (s : Stmt) (hs : s.Legible) :
    Legibly (fun flow => ∀ v ∈ flow.value?, Value.Legible v) (stmt budget (n + 1) s) := by
  cases s with
  | letVar name nameSpan type value span =>
    have hdeclare {v : Value} (hv : v.Legible) :
        Legibly (fun flow => ∀ v ∈ flow.value?, Value.Legible v)
          (do modify (Machine.declare name v); return Flow.next) :=
      Legibly.bind (Legibly.modify fun m hm => hm.declare name hv) fun _ _ =>
        Legibly.pure Value.legible_of_mem_none
    rw [Exec.stmt]
    refine Legibly.bind (legibly_tick budget _) fun _ _ => ?_
    refine Legibly.bind (ih.eval type value hs.2) fun v hv => ?_
    dsimp only
    split
    · split
      · exact Legibly.fail_bind _ _ _
      · exact hdeclare hv
    · exact hdeclare hv
  | assign name value span =>
    rw [Exec.stmt]
    refine Legibly.bind (legibly_tick budget _) fun _ _ => ?_
    refine Legibly.bind Legibly.get fun m hm => ?_
    split
    · exact Legibly.fail _ _
    · refine Legibly.bind (ih.eval _ value hs.2) fun v hv => ?_
      dsimp only
      split
      · exact Legibly.fail_bind _ _ _
      · exact Legibly.bind (Legibly.modify fun m hm => hm.assign name hv) fun _ _ =>
          Legibly.pure Value.legible_of_mem_none
  | assignAt name place value span => exact legibly_assignAt ih name place value span hs.2.1 hs.2.2
  | call name nameSpan args callSpan span =>
    rw [Exec.stmt]
    refine Legibly.bind (legibly_tick budget _) fun _ _ => ?_
    exact Legibly.bind (ih.call false name nameSpan args callSpan hs.2) fun _ _ =>
      Legibly.pure Value.legible_of_mem_none
  | when cond body bodySpan span =>
    rw [Exec.stmt]
    refine Legibly.bind (legibly_tick budget _) fun _ _ => ?_
    refine Legibly.bind (ih.eval none cond hs.1) fun v _ => ?_
    split
    · exact ih.block body hs.2
    · exact Legibly.pure Value.legible_of_mem_none
    · exact Legibly.mismatch _ _ _
  | ifElse cond body bodySpan other otherSpan span =>
    rw [Exec.stmt]
    refine Legibly.bind (legibly_tick budget _) fun _ _ => ?_
    refine Legibly.bind (ih.eval none cond hs.1) fun v _ => ?_
    split
    · exact ih.block body hs.2.1
    · exact ih.block other hs.2.2
    · exact Legibly.mismatch _ _ _
  | loop body bodySpan span =>
    rw [Exec.stmt]
    exact Legibly.bind (legibly_tick budget _) fun _ _ => ih.rounds body span hs
  | stop span =>
    rw [Exec.stmt]
    exact Legibly.bind (legibly_tick budget _) fun _ _ => Legibly.pure Value.legible_of_mem_none
  | ret value span =>
    cases value with
    | none =>
      rw [Exec.stmt]
      exact Legibly.bind (legibly_tick budget _) fun _ _ => Legibly.pure Value.legible_of_mem_none
    | some value =>
      rw [Exec.stmt]
      refine Legibly.bind (legibly_tick budget _) fun _ _ => ?_
      refine Legibly.bind (ih.eval none value hs) fun v hv => Legibly.pure fun u hu => ?_
      cases hu
      exact hv
  | exit value span =>
    rw [Exec.stmt]
    refine Legibly.bind (legibly_tick budget _) fun _ _ => ?_
    refine Legibly.bind (ih.eval none value hs) fun v _ => ?_
    split
    · exact Legibly.throw _
    · exact Legibly.mismatch _ _ _
  | fn name params result body bodySpan span =>
    rw [Exec.stmt]
    refine Legibly.bind (legibly_tick budget _) fun _ _ => ?_
    split
    · exact Legibly.fail _ _
    · exact Legibly.bind (Legibly.modify fun m hm => hm.define name hs.2.2) fun _ _ =>
        Legibly.pure Value.legible_of_mem_none

theorem legibly_block (ss : List Stmt) (hss : Stmt.AllLegible ss) :
    Legibly (fun flow => ∀ v ∈ flow.value?, Value.Legible v) (block budget (n + 1) ss) := by
  cases ss with
  | nil => rw [Exec.block]; exact Legibly.pure Value.legible_of_mem_none
  | cons s rest =>
    rw [Exec.block]
    refine Legibly.bind (ih.stmt s hss.1) fun flow hflow => ?_
    split
    · exact ih.block rest hss.2
    · exact Legibly.pure hflow

theorem legibly_rounds (body : List Stmt) (span : Span) (hbody : Stmt.AllLegible body) :
    Legibly (fun flow => ∀ v ∈ flow.value?, Value.Legible v)
      (rounds budget (n + 1) body span) := by
  rw [Exec.rounds]
  refine Legibly.bind (ih.block body hbody) fun flow hflow => ?_
  split
  · exact Legibly.pure Value.legible_of_mem_none
  · exact Legibly.pure hflow
  · exact Legibly.bind (legibly_tick budget span) fun _ _ => ih.rounds body span hbody

end Step

/-- Execution keeps machines legible with every amount of fuel. -/
theorem legibleAt (budget : Budget) (n : Nat) : LegibleAt budget n := by
  induction n with
  | zero =>
    have idle {α : Type} {post : α → Prop} {x : Exec α} (hx : x = throw .outOfFuel) :
        Legibly post x := by
      rw [hx]
      exact Legibly.throw _
    constructor
    · intro hint e _; exact idle (by rw [Exec.eval])
    · intro hint es _; exact idle (by rw [Exec.evalItems])
    · intro hints es _; exact idle (by rw [Exec.evalArgs])
    · intro wanted name nameSpan args span _; exact idle (by rw [Exec.call])
    · intro s _; exact idle (by rw [Exec.stmt])
    · intro ss _; exact idle (by rw [Exec.block])
    · intro body span _; exact idle (by rw [Exec.rounds])
  | succ n ih =>
    exact ⟨legibly_eval ih, legibly_evalItems ih, legibly_evalArgs ih, legibly_call ih,
      legibly_stmt ih, legibly_block ih, legibly_rounds ih⟩

end Exec
end Scriptlet
