import Scriptlet.Machine
import Scriptlet.Proofs.Grammar

/-!
# Respan: programs moved to other places

A program can be moved to other places without a change to what it says: every span is replaced by
its image under a function. A bare tree is a tree moved to the origin. Functions, faults and halts
move with the spans they hold; messages do not mention places, so moving changes none.
-/

namespace Scriptlet

/-! ## Trees -/

mutual

/-- The expression with every span moved. -/
def Expr.respan (f : Span → Span) : Expr → Expr
  | .int n s => .int n (f s)
  | .str t s => .str t (f s)
  | .bool b s => .bool b (f s)
  | .ident name s => .ident name (f s)
  | .vec elems s => .vec (Expr.allRespan f elems) (f s)
  | .neg operand s => .neg (operand.respan f) (f s)
  | .binary op left right s => .binary op (left.respan f) (right.respan f) (f s)
  | .call name nameSpan args s => .call name (f nameSpan) (Expr.allRespan f args) (f s)
  | .index target place s => .index (target.respan f) (place.respan f) (f s)

/-- The expressions with every span moved. -/
def Expr.allRespan (f : Span → Span) : List Expr → List Expr
  | [] => []
  | e :: rest => e.respan f :: Expr.allRespan f rest

end

/-- The parameter with its span moved. -/
def Param.respan (f : Span → Span) (p : Param) : Param := { p with span := f p.span }

mutual

/-- The statement with every span moved. -/
def Stmt.respan (f : Span → Span) : Stmt → Stmt
  | .letVar name nameSpan type value s => .letVar name (f nameSpan) type (value.respan f) (f s)
  | .assign name value s => .assign name (value.respan f) (f s)
  | .assignAt name place value s => .assignAt name (place.respan f) (value.respan f) (f s)
  | .call name nameSpan args callSpan s =>
    .call name (f nameSpan) (Expr.allRespan f args) (f callSpan) (f s)
  | .when cond body bodySpan s =>
    .when (cond.respan f) (Stmt.allRespan f body) (f bodySpan) (f s)
  | .ifElse cond body bodySpan other otherSpan s =>
    .ifElse (cond.respan f) (Stmt.allRespan f body) (f bodySpan) (Stmt.allRespan f other)
      (f otherSpan) (f s)
  | .loop body bodySpan s => .loop (Stmt.allRespan f body) (f bodySpan) (f s)
  | .stop s => .stop (f s)
  | .ret value s => .ret (value.map (Expr.respan f)) (f s)
  | .exit value s => .exit (value.respan f) (f s)
  | .fn name params result body bodySpan s =>
    .fn name (params.map (Param.respan f)) result (Stmt.allRespan f body) (f bodySpan) (f s)

/-- The statements with every span moved. -/
def Stmt.allRespan (f : Span → Span) : List Stmt → List Stmt
  | [] => []
  | s :: rest => s.respan f :: Stmt.allRespan f rest

end

variable {f g : Span → Span}

@[simp] theorem Expr.span_respan (e : Expr) : (e.respan f).span = f e.span := by
  cases e with
  | int | str | bool | ident | vec | neg | binary | call | index => rw [Expr.respan]; rfl

@[simp] theorem Stmt.span_respan (s : Stmt) : (s.respan f).span = f s.span := by
  cases s with
  | letVar | assign | assignAt | call | when | ifElse => rw [Stmt.respan]; rfl
  | loop | stop | ret | exit | fn => rw [Stmt.respan]; rfl

theorem Expr.allRespan_eq_map (es : List Expr) : Expr.allRespan f es = es.map (Expr.respan f) := by
  induction es with
  | nil => rw [Expr.allRespan]; rfl
  | cons e rest ih => rw [Expr.allRespan, ih]; rfl

theorem Stmt.allRespan_eq_map (ss : List Stmt) : Stmt.allRespan f ss = ss.map (Stmt.respan f) := by
  induction ss with
  | nil => rw [Stmt.allRespan]; rfl
  | cons s rest ih => rw [Stmt.allRespan, ih]; rfl

theorem Stmt.allRespan_append (ss ts : List Stmt) :
    Stmt.allRespan f (ss ++ ts) = Stmt.allRespan f ss ++ Stmt.allRespan f ts := by
  simp only [Stmt.allRespan_eq_map, List.map_append]

mutual

theorem Expr.respan_respan : (e : Expr) → (e.respan f).respan g = e.respan (g ∘ f)
  | .int .. | .str .. | .bool .. | .ident .. => by simp only [Expr.respan, Function.comp_apply]
  | .vec elems s => by
    simp only [Expr.respan, Function.comp_apply, Expr.allRespan_allRespan elems]
  | .neg operand s => by simp only [Expr.respan, Function.comp_apply, Expr.respan_respan operand]
  | .binary op left right s => by
    simp only [Expr.respan, Function.comp_apply, Expr.respan_respan left, Expr.respan_respan right]
  | .call name nameSpan args s => by
    simp only [Expr.respan, Function.comp_apply, Expr.allRespan_allRespan args]
  | .index target place s => by
    simp only [Expr.respan, Function.comp_apply, Expr.respan_respan target,
      Expr.respan_respan place]

theorem Expr.allRespan_allRespan :
    (es : List Expr) → Expr.allRespan g (Expr.allRespan f es) = Expr.allRespan (g ∘ f) es
  | [] => by simp only [Expr.allRespan]
  | e :: rest => by
    simp only [Expr.allRespan, Expr.respan_respan e, Expr.allRespan_allRespan rest]

end

mutual

theorem Expr.respan_id : (e : Expr) → e.respan id = e
  | .int .. | .str .. | .bool .. | .ident .. => by simp only [Expr.respan, id]
  | .vec elems s => by simp only [Expr.respan, id, Expr.allRespan_id elems]
  | .neg operand s => by simp only [Expr.respan, id, Expr.respan_id operand]
  | .binary op left right s => by
    simp only [Expr.respan, id, Expr.respan_id left, Expr.respan_id right]
  | .call name nameSpan args s => by simp only [Expr.respan, id, Expr.allRespan_id args]
  | .index target place s => by
    simp only [Expr.respan, id, Expr.respan_id target, Expr.respan_id place]

theorem Expr.allRespan_id : (es : List Expr) → Expr.allRespan id es = es
  | [] => by simp only [Expr.allRespan]
  | e :: rest => by simp only [Expr.allRespan, Expr.respan_id e, Expr.allRespan_id rest]

end

theorem Param.respan_respan (p : Param) : (p.respan f).respan g = p.respan (g ∘ f) := rfl

theorem Param.respan_id (p : Param) : p.respan id = p := rfl

mutual

theorem Stmt.respan_respan : (s : Stmt) → (s.respan f).respan g = s.respan (g ∘ f)
  | .letVar name nameSpan type value s => by
    simp only [Stmt.respan, Function.comp_apply, Expr.respan_respan]
  | .assign name value s => by simp only [Stmt.respan, Function.comp_apply, Expr.respan_respan]
  | .assignAt name place value s => by
    simp only [Stmt.respan, Function.comp_apply, Expr.respan_respan]
  | .call name nameSpan args callSpan s => by
    simp only [Stmt.respan, Function.comp_apply, Expr.allRespan_allRespan]
  | .when cond body bodySpan s => by
    simp only [Stmt.respan, Function.comp_apply, Expr.respan_respan, Stmt.allRespan_allRespan body]
  | .ifElse cond body bodySpan other otherSpan s => by
    simp only [Stmt.respan, Function.comp_apply, Expr.respan_respan, Stmt.allRespan_allRespan body,
      Stmt.allRespan_allRespan other]
  | .loop body bodySpan s => by
    simp only [Stmt.respan, Function.comp_apply, Stmt.allRespan_allRespan body]
  | .stop s => by simp only [Stmt.respan, Function.comp_apply]
  | .ret none s => by simp only [Stmt.respan, Function.comp_apply, Option.map_none]
  | .ret (some value) s => by
    simp only [Stmt.respan, Function.comp_apply, Option.map_some, Expr.respan_respan]
  | .exit value s => by simp only [Stmt.respan, Function.comp_apply, Expr.respan_respan]
  | .fn name params result body bodySpan s => by
    simp only [Stmt.respan, Function.comp_apply, Stmt.allRespan_allRespan body, List.map_map]
    rfl

theorem Stmt.allRespan_allRespan :
    (ss : List Stmt) → Stmt.allRespan g (Stmt.allRespan f ss) = Stmt.allRespan (g ∘ f) ss
  | [] => by simp only [Stmt.allRespan]
  | s :: rest => by
    simp only [Stmt.allRespan, Stmt.respan_respan s, Stmt.allRespan_allRespan rest]

end

mutual

theorem Stmt.respan_id : (s : Stmt) → s.respan id = s
  | .letVar name nameSpan type value s => by simp only [Stmt.respan, id, Expr.respan_id]
  | .assign name value s => by simp only [Stmt.respan, id, Expr.respan_id]
  | .assignAt name place value s => by simp only [Stmt.respan, id, Expr.respan_id]
  | .call name nameSpan args callSpan s => by simp only [Stmt.respan, id, Expr.allRespan_id]
  | .when cond body bodySpan s => by
    simp only [Stmt.respan, id, Expr.respan_id, Stmt.allRespan_id body]
  | .ifElse cond body bodySpan other otherSpan s => by
    simp only [Stmt.respan, id, Expr.respan_id, Stmt.allRespan_id body, Stmt.allRespan_id other]
  | .loop body bodySpan s => by simp only [Stmt.respan, id, Stmt.allRespan_id body]
  | .stop s => by simp only [Stmt.respan, id]
  | .ret none s => by simp only [Stmt.respan, id, Option.map_none]
  | .ret (some value) s => by simp only [Stmt.respan, id, Option.map_some, Expr.respan_id]
  | .exit value s => by simp only [Stmt.respan, id, Expr.respan_id]
  | .fn name params result body bodySpan s => by
    have hparams : params.map (Param.respan id) = params := by
      rw [show Param.respan id = id from funext Param.respan_id, List.map_id]
    simp only [Stmt.respan, id, Stmt.allRespan_id body, hparams]

theorem Stmt.allRespan_id : (ss : List Stmt) → Stmt.allRespan id ss = ss
  | [] => by simp only [Stmt.allRespan]
  | s :: rest => by simp only [Stmt.allRespan, Stmt.respan_id s, Stmt.allRespan_id rest]

end

/-! ## Bare trees -/

mutual

theorem Expr.bare_eq_respan : (e : Expr) → e.bare = e.respan fun _ => .origin
  | .int .. | .str .. | .bool .. | .ident .. => by simp only [Expr.bare, Expr.respan]
  | .vec elems s => by simp only [Expr.bare, Expr.respan, Expr.allBare_eq_allRespan elems]
  | .neg operand s => by simp only [Expr.bare, Expr.respan, Expr.bare_eq_respan operand]
  | .binary op left right s => by
    simp only [Expr.bare, Expr.respan, Expr.bare_eq_respan left, Expr.bare_eq_respan right]
  | .call name nameSpan args s => by
    simp only [Expr.bare, Expr.respan, Expr.allBare_eq_allRespan args]
  | .index target place s => by
    simp only [Expr.bare, Expr.respan, Expr.bare_eq_respan target, Expr.bare_eq_respan place]

theorem Expr.allBare_eq_allRespan :
    (es : List Expr) → Expr.allBare es = Expr.allRespan (fun _ => .origin) es
  | [] => by simp only [Expr.allBare, Expr.allRespan]
  | e :: rest => by
    simp only [Expr.allBare, Expr.allRespan, Expr.bare_eq_respan e, Expr.allBare_eq_allRespan rest]

end

mutual

/-- A bare statement is a statement moved to the origin. -/
theorem Stmt.bare_eq_respan : (s : Stmt) → s.bare = s.respan fun _ => .origin
  | .letVar .. | .assign .. | .assignAt .. | .stop .. | .exit .. => by
    simp only [Stmt.bare, Stmt.respan, Expr.bare_eq_respan]
  | .call name nameSpan args callSpan s => by
    simp only [Stmt.bare, Stmt.respan, Expr.allBare_eq_allRespan]
  | .when cond body bodySpan s => by
    simp only [Stmt.bare, Stmt.respan, Expr.bare_eq_respan, Stmt.allBare_eq_allRespan body]
  | .ifElse cond body bodySpan other otherSpan s => by
    simp only [Stmt.bare, Stmt.respan, Expr.bare_eq_respan, Stmt.allBare_eq_allRespan body,
      Stmt.allBare_eq_allRespan other]
  | .loop body bodySpan s => by
    simp only [Stmt.bare, Stmt.respan, Stmt.allBare_eq_allRespan body]
  | .ret none s => by simp only [Stmt.bare, Stmt.respan, Option.map_none]
  | .ret (some value) s => by
    simp only [Stmt.bare, Stmt.respan, Option.map_some, Expr.bare_eq_respan]
  | .fn name params result body bodySpan s => by
    simp only [Stmt.bare, Stmt.respan, Stmt.allBare_eq_allRespan body]
    rfl

theorem Stmt.allBare_eq_allRespan :
    (ss : List Stmt) → Stmt.allBare ss = Stmt.allRespan (fun _ => .origin) ss
  | [] => by simp only [Stmt.allBare, Stmt.allRespan]
  | s :: rest => by
    simp only [Stmt.allBare, Stmt.allRespan, Stmt.bare_eq_respan s, Stmt.allBare_eq_allRespan rest]

end

/-! ## Functions and faults -/

/-- The function with every span moved. -/
def Function.respan (f : Span → Span) (fn : Function) : Function :=
  ⟨fn.params.map (Param.respan f), fn.result, Stmt.allRespan f fn.body⟩

theorem Function.respan_id (fn : Function) : fn.respan id = fn := by
  have hparams : fn.params.map (Param.respan id) = fn.params := by
    rw [show Param.respan id = id from funext Param.respan_id, List.map_id]
  unfold Function.respan
  rw [hparams, Stmt.allRespan_id]

/-- The token with its span moved. -/
def Token.respan (f : Span → Span) (t : Token) : Token := { t with span := f t.span }

/-- The fault with the token it found moved. -/
def Fault.respan (f : Span → Span) : Fault → Fault
  | .expected want found => .expected want (found.respan f)
  | fault => fault

/-- The diagnostic with every span moved. -/
def Diagnostic.respan (f : Span → Span) (d : Diagnostic) : Diagnostic :=
  ⟨d.fault.respan f, f d.span⟩

/-- The halt with every span moved. -/
def Halt.respan (f : Span → Span) : Halt → Halt
  | .fault d => .fault (d.respan f)
  | .exit code => .exit code
  | .stuck => .stuck
  | .outOfFuel => .outOfFuel

/-- Only ill-formed texts have faults that hold a place. -/
theorem Fault.respan_of_code {fault : Fault} (h : fault.code ≠ .malformed) :
    fault.respan f = fault := by
  cases fault with
  | expected want found => exact absurd rfl h
  | _ => rfl

theorem Diagnostic.respan_id (d : Diagnostic) : d.respan id = d := by
  obtain ⟨fault, span⟩ := d
  cases fault <;> rfl

/-- Moving keeps what is said about a fault. -/
theorem Fault.message_respan (fault : Fault) : (fault.respan f).message = fault.message := by
  cases fault with
  | expected want found => rfl
  | _ => rfl

theorem Fault.note_respan (fault : Fault) : (fault.respan f).note = fault.note := by
  cases fault with
  | expected want found => rfl
  | _ => rfl

theorem Fault.code_respan (fault : Fault) : (fault.respan f).code = fault.code := by
  cases fault with
  | expected want found => rfl
  | _ => rfl

end Scriptlet
