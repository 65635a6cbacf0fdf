import Scriptlet.Proofs.Machine.Truncation

/-!
# Evaluation: what an expression ends with

The fuel that an evaluation is given decides whether its end is seen, never which end that is. So
one can speak of the outcome of an expression on a machine. Of the variables of the machine, those
that occur in the expression are the ones it looks at by itself.
-/

namespace Scriptlet

mutual

/-- The variables that occur in the expression. -/
def Expr.names : Expr → List Bytes
  | .int .. | .str .. | .bool .. => []
  | .ident name _ => [name]
  | .vec elems _ => Expr.allNames elems
  | .neg operand _ => operand.names
  | .binary _ left right _ => left.names ++ right.names
  | .call _ _ args _ => Expr.allNames args
  | .index target place _ => target.names ++ place.names

/-- The variables that occur in the expressions. -/
def Expr.allNames : List Expr → List Bytes
  | [] => []
  | e :: rest => e.names ++ Expr.allNames rest

end

namespace Exec

/-- More fuel changes nothing about an evaluation that was followed to its end. -/
theorem eval_of_le {b : Budget} {n n' : Nat} {hint : Option Ty} {e : Expr} {m : Machine}
    (h : finished (eval b n hint e m) = true) (hn : n ≤ n') :
    eval b n' hint e m = eval b n hint e m := by
  obtain ⟨d, rfl⟩ := Nat.exists_eq_add_of_le hn
  have hshort := ((truncates_fuel b n d).eval hint e).shortens m
  rw [Expr.respan_id] at hshort
  exact eq_of_shortens hshort h

end Exec

/-- The expression, evaluated on the machine with the hint, ends with the given outcome. -/
structure Expr.EndsIn (b : Budget) (hint : Option Ty) (e : Expr) (m : Machine)
    (r : EStateM.Result Halt Machine Value) : Prop where
  finished : finished r = true
  fuel : ∃ n, ∀ fuel, n ≤ fuel → Exec.eval b fuel hint e m = r

namespace Expr

variable {b : Budget} {hint : Option Ty} {e : Expr} {m : Machine}
  {r r' : EStateM.Result Halt Machine Value}

/-- An evaluation that was followed to its end shows the outcome. -/
theorem endsIn_eval {n : Nat} (h : Scriptlet.finished (Exec.eval b n hint e m) = true) :
    EndsIn b hint e m (Exec.eval b n hint e m) :=
  ⟨h, n, fun _ hn => Exec.eval_of_le h hn⟩

theorem endsIn_of_eq {n : Nat} (h : Exec.eval b n hint e m = r)
    (hr : Scriptlet.finished r = true) : EndsIn b hint e m r := by
  subst h
  exact endsIn_eval hr

theorem EndsIn.unique (h : EndsIn b hint e m r) (h' : EndsIn b hint e m r') : r = r' := by
  obtain ⟨n, hn⟩ := h.fuel
  obtain ⟨n', hn'⟩ := h'.fuel
  rw [← hn (max n n') (Nat.le_max_left ..), hn' (max n n') (Nat.le_max_right ..)]

end Expr
end Scriptlet
