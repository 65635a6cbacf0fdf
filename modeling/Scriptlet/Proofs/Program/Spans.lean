import Scriptlet.Program.Nodes
import Scriptlet.Proofs.Program.Respan

/-!
# Spans: the places in a program

The nodes of a program are all the places in it. So two ways of moving places move a program to the
same program exactly if they agree on the spans of its nodes.
-/

namespace Scriptlet

variable {f g : Span → Span}

mutual

theorem Expr.respan_eq_iff :
    (e : Expr) → (e.respan f = e.respan g ↔ ∀ n ∈ e.nodes, f n.2 = g n.2)
  | .int .. | .str .. | .bool .. | .ident .. => by simp [Expr.respan, Expr.nodes]
  | .vec elems s => by
    simp only [Expr.respan, Expr.nodes, Expr.vec.injEq, Expr.allRespan_eq_iff elems,
      List.forall_mem_cons, and_comm]
  | .neg operand s => by
    simp only [Expr.respan, Expr.nodes, Expr.neg.injEq, Expr.respan_eq_iff operand,
      List.forall_mem_cons, and_comm]
  | .binary op left right s => by
    simp only [Expr.respan, Expr.nodes, Expr.binary.injEq, Expr.respan_eq_iff left,
      Expr.respan_eq_iff right, List.forall_mem_cons, List.forall_mem_append, true_and, and_comm,
      and_left_comm]
  | .call name nameSpan args s => by
    simp only [Expr.respan, Expr.nodes, Expr.call.injEq, Expr.allRespan_eq_iff args,
      List.forall_mem_cons, true_and, and_comm, and_left_comm]
  | .index target place s => by
    simp only [Expr.respan, Expr.nodes, Expr.index.injEq, Expr.respan_eq_iff target,
      Expr.respan_eq_iff place, List.forall_mem_cons, List.forall_mem_append, and_comm,
      and_left_comm]

theorem Expr.allRespan_eq_iff : (es : List Expr) →
    (Expr.allRespan f es = Expr.allRespan g es ↔ ∀ n ∈ Expr.allNodes es, f n.2 = g n.2)
  | [] => by simp [Expr.allRespan, Expr.allNodes]
  | e :: rest => by
    simp only [Expr.allRespan, Expr.allNodes, List.cons.injEq, Expr.respan_eq_iff e,
      Expr.allRespan_eq_iff rest, List.forall_mem_append]

end

theorem Param.map_respan_eq_iff (params : List Param) :
    params.map (Param.respan f) = params.map (Param.respan g) ↔
      ∀ n ∈ (params.map (fun p => (NodeLabel.param, p.span)) : List Node), f n.2 = g n.2 := by
  rw [List.map_inj_left, List.forall_mem_map]
  refine forall₂_congr fun p _ => ⟨congrArg Param.span, fun h => ?_⟩
  unfold Param.respan
  rw [h]

mutual

theorem Stmt.respan_eq_iff :
    (s : Stmt) → (s.respan f = s.respan g ↔ ∀ n ∈ s.nodes, f n.2 = g n.2)
  | .letVar name nameSpan type value s => by
    simp only [Stmt.respan, Stmt.nodes, Stmt.letVar.injEq, Expr.respan_eq_iff,
      List.forall_mem_cons, true_and, and_comm, and_left_comm]
  | .assign name value s => by
    simp only [Stmt.respan, Stmt.nodes, Stmt.assign.injEq, Expr.respan_eq_iff,
      List.forall_mem_cons, true_and, and_comm]
  | .assignAt name place value s => by
    simp only [Stmt.respan, Stmt.nodes, Stmt.assignAt.injEq, Expr.respan_eq_iff,
      List.forall_mem_cons, List.forall_mem_append, true_and, and_comm, and_left_comm]
  | .call name nameSpan args callSpan s => by
    simp only [Stmt.respan, Stmt.nodes, Stmt.call.injEq, Expr.allRespan_eq_iff,
      List.forall_mem_cons, true_and, and_assoc, and_comm, and_left_comm]
  | .when cond body bodySpan s => by
    simp only [Stmt.respan, Stmt.nodes, Stmt.when.injEq, Expr.respan_eq_iff,
      Stmt.allRespan_eq_iff body, List.forall_mem_cons, List.forall_mem_append, and_assoc,
      and_comm, and_left_comm]
  | .ifElse cond body bodySpan other otherSpan s => by
    simp only [Stmt.respan, Stmt.nodes, Stmt.ifElse.injEq, Expr.respan_eq_iff,
      Stmt.allRespan_eq_iff body, Stmt.allRespan_eq_iff other, List.forall_mem_cons,
      List.forall_mem_append, and_assoc, and_comm, and_left_comm]
  | .loop body bodySpan s => by
    simp only [Stmt.respan, Stmt.nodes, Stmt.loop.injEq, Stmt.allRespan_eq_iff body,
      List.forall_mem_cons, and_assoc, and_comm, and_left_comm]
  | .stop s => by simp [Stmt.respan, Stmt.nodes]
  | .ret none s => by simp [Stmt.respan, Stmt.nodes]
  | .ret (some value) s => by
    simp only [Stmt.respan, Stmt.nodes, Stmt.ret.injEq, Option.map_some, Option.some.injEq,
      Expr.respan_eq_iff, List.forall_mem_cons, and_comm]
  | .exit value s => by
    simp only [Stmt.respan, Stmt.nodes, Stmt.exit.injEq, Expr.respan_eq_iff,
      List.forall_mem_cons, and_comm]
  | .fn name params result body bodySpan s => by
    simp only [Stmt.respan, Stmt.nodes, Stmt.fn.injEq, Param.map_respan_eq_iff,
      Stmt.allRespan_eq_iff body, List.forall_mem_cons, List.forall_mem_append, true_and, and_assoc,
      and_comm, and_left_comm]

theorem Stmt.allRespan_eq_iff : (ss : List Stmt) →
    (Stmt.allRespan f ss = Stmt.allRespan g ss ↔ ∀ n ∈ Stmt.allNodes ss, f n.2 = g n.2)
  | [] => by simp [Stmt.allRespan, Stmt.allNodes]
  | s :: rest => by
    simp only [Stmt.allRespan, Stmt.allNodes, List.cons.injEq, Stmt.respan_eq_iff s,
      Stmt.allRespan_eq_iff rest, List.forall_mem_append]

end

/-- Moving only places that are not in a program leaves the program. -/
theorem Stmt.allRespan_of_fixed {ss : List Stmt} (h : ∀ n ∈ Stmt.allNodes ss, f n.2 = n.2) :
    Stmt.allRespan f ss = ss := by
  have hid : Stmt.allRespan f ss = Stmt.allRespan id ss := (Stmt.allRespan_eq_iff ss).2 h
  rw [hid, Stmt.allRespan_id]

end Scriptlet
