import Scriptlet.Program.Nodes
import Scriptlet.Proofs.Lexing.Tiling

/-!
# Nesting: where the spans of a tree lie

A node covers the parts it is made of: they lie inside it, one behind the other. Blocks begin and
end with their braces, and the statements in them lie between those; simple statements end with
their semicolon. The block that stands for the missing braces of an `else if` is its only
statement.
-/

namespace Scriptlet

namespace Span

/-- The span lies between the offsets and is not empty. -/
def Lies (s : Span) (a b : Nat) : Prop := ∃ i j, s = .between i j ∧ a ≤ i ∧ i < j ∧ j ≤ b

/-- The span lies in the source and is not empty. -/
def Inside (s : Span) (src : Bytes) : Prop := s.Lies 0 src.length

/-- The spans lie in this one, each behind those before it. -/
structure Holds (s : Span) (parts : List Span) : Prop where
  within : ∀ p ∈ parts, s.start ≤ p.start ∧ p.stop ≤ s.stop
  ordered : parts.Pairwise fun p q => p.stop ≤ q.start

/-- The first byte of the span. -/
def first? (s : Span) (src : Bytes) : Option UInt8 := src[s.start.toNat]?

/-- The last byte of the span. -/
def last? (s : Span) (src : Bytes) : Option UInt8 := src[s.stop.toNat - 1]?

/-- The span reaches from a brace to a brace, and the spans lie between the two. -/
structure Braces (s : Span) (src : Bytes) (parts : List Span) : Prop where
  inside : s.Inside src
  opening : s.first? src = some (byte '\x7b')
  closing : s.last? src = some (byte '\x7d')
  between : Holds ⟨s.start + 1, s.stop - 1⟩ parts

end Span

/-! ## Trees -/

mutual

/-- The spans of the expression nest. -/
def Expr.Nests (src : Bytes) : Expr → Prop
  | .int _ s | .str _ s | .bool _ s | .ident _ s => s.Inside src
  | .vec elems s => s.Inside src ∧ s.Holds (elems.map Expr.span) ∧ Expr.AllNest src elems
  | .neg operand s => s.Inside src ∧ s.Holds [operand.span] ∧ operand.Nests src
  | .binary _ left right s =>
    s.Inside src ∧ s.Holds [left.span, right.span] ∧ left.Nests src ∧ right.Nests src
  | .call _ nameSpan args s =>
    s.Inside src ∧ s.Holds (nameSpan :: args.map Expr.span) ∧ nameSpan.Inside src ∧
      Expr.AllNest src args
  | .index target place s =>
    s.Inside src ∧ s.Holds [target.span, place.span] ∧ target.Nests src ∧ place.Nests src

/-- The spans of each of the expressions nest. -/
def Expr.AllNest (src : Bytes) : List Expr → Prop
  | [] => True
  | e :: rest => e.Nests src ∧ Expr.AllNest src rest

end

/-- The span of a simple statement lies in the source and ends with a semicolon. -/
def Span.Ends (s : Span) (src : Bytes) : Prop := s.Inside src ∧ s.last? src = some (byte ';')

/-- The statement is an `if`. -/
def Stmt.Branches : Stmt → Prop
  | .when .. | .ifElse .. => True
  | _ => False

mutual

/-- The spans of the statement nest. -/
def Stmt.Nests (src : Bytes) : Stmt → Prop
  | .letVar _ nameSpan _ value s =>
    s.Ends src ∧ s.Holds [nameSpan, value.span] ∧ nameSpan.Inside src ∧ value.Nests src
  | .assign _ value s => s.Ends src ∧ s.Holds [value.span] ∧ value.Nests src
  | .assignAt _ place value s =>
    s.Ends src ∧ s.Holds [place.span, value.span] ∧ place.Nests src ∧ value.Nests src
  | .call name nameSpan args callSpan s =>
    s.Ends src ∧ s.Holds [callSpan] ∧ (Expr.call name nameSpan args callSpan).Nests src
  | .when cond body bodySpan s =>
    s.Inside src ∧ s.Holds [cond.span, bodySpan] ∧ cond.Nests src ∧
      bodySpan.Braces src (body.map Stmt.span) ∧ Stmt.AllNest src body
  | .ifElse cond body bodySpan other otherSpan s =>
    s.Inside src ∧ s.Holds [cond.span, bodySpan, otherSpan] ∧ cond.Nests src ∧
      bodySpan.Braces src (body.map Stmt.span) ∧ Stmt.AllNest src body ∧
      (otherSpan.Braces src (other.map Stmt.span) ∨
        ∃ nested, other = [nested] ∧ nested.Branches ∧ otherSpan = nested.span) ∧
      Stmt.AllNest src other
  | .loop body bodySpan s =>
    s.Inside src ∧ s.Holds [bodySpan] ∧ bodySpan.Braces src (body.map Stmt.span) ∧
      Stmt.AllNest src body
  | .stop s => s.Ends src
  | .ret none s => s.Ends src
  | .ret (some value) s => s.Ends src ∧ s.Holds [value.span] ∧ value.Nests src
  | .exit value s => s.Ends src ∧ s.Holds [value.span] ∧ value.Nests src
  | .fn _ params _ body bodySpan s =>
    s.Inside src ∧ s.Holds (params.map Param.span ++ [bodySpan]) ∧
      (∀ p ∈ params, p.span.Inside src) ∧ bodySpan.Braces src (body.map Stmt.span) ∧
      Stmt.AllNest src body

/-- The spans of each of the statements nest. -/
def Stmt.AllNest (src : Bytes) : List Stmt → Prop
  | [] => True
  | s :: rest => s.Nests src ∧ Stmt.AllNest src rest

end

/-! ## Every node of a tree -/

variable {src : Bytes}

theorem Expr.Nests.inside {e : Expr} (h : e.Nests src) : e.span.Inside src := by
  cases e with
  | int | str | bool | ident => exact h
  | vec | neg | binary | call | index => exact h.1

theorem Stmt.Nests.inside {s : Stmt} (h : s.Nests src) : s.span.Inside src := by
  cases s with
  | when | ifElse | loop | fn | stop => exact h.1
  | ret value =>
    cases value with
    | none => exact h.1
    | some value => exact h.1.1
  | letVar | assign | assignAt | call | exit => exact h.1.1

mutual

theorem Expr.inside_of_mem_nodes : (e : Expr) → e.Nests src → ∀ n ∈ e.nodes, n.2.Inside src
  | .int .., h | .str .., h | .bool .., h | .ident .., h => List.forall_mem_singleton.2 h
  | .vec elems _, ⟨hs, _, helems⟩ =>
    List.forall_mem_cons.2 ⟨hs, Expr.inside_of_mem_allNodes elems helems⟩
  | .neg operand _, ⟨hs, _, h⟩ => List.forall_mem_cons.2 ⟨hs, operand.inside_of_mem_nodes h⟩
  | .binary _ left right _, ⟨hs, _, hleft, hright⟩ =>
    List.forall_mem_cons.2 ⟨hs, List.forall_mem_append.2
      ⟨left.inside_of_mem_nodes hleft, right.inside_of_mem_nodes hright⟩⟩
  | .call _ _ args _, ⟨hs, _, hname, hargs⟩ =>
    List.forall_mem_cons.2 ⟨hs, List.forall_mem_cons.2
      ⟨hname, Expr.inside_of_mem_allNodes args hargs⟩⟩
  | .index target place _, ⟨hs, _, htarget, hplace⟩ =>
    List.forall_mem_cons.2 ⟨hs, List.forall_mem_append.2
      ⟨target.inside_of_mem_nodes htarget, place.inside_of_mem_nodes hplace⟩⟩

theorem Expr.inside_of_mem_allNodes :
    (es : List Expr) → Expr.AllNest src es → ∀ n ∈ Expr.allNodes es, n.2.Inside src
  | [], _ => nofun
  | e :: rest, ⟨he, hrest⟩ => List.forall_mem_append.2
    ⟨e.inside_of_mem_nodes he, Expr.inside_of_mem_allNodes rest hrest⟩

end

mutual

theorem Stmt.inside_of_mem_nodes : (s : Stmt) → s.Nests src → ∀ n ∈ s.nodes, n.2.Inside src
  | .letVar _ _ _ value _, ⟨hs, _, hname, hvalue⟩ =>
    List.forall_mem_cons.2 ⟨hs.1, List.forall_mem_cons.2
      ⟨hname, value.inside_of_mem_nodes hvalue⟩⟩
  | .assign _ value _, ⟨hs, _, hvalue⟩ | .exit value _, ⟨hs, _, hvalue⟩
  | .ret (some value) _, ⟨hs, _, hvalue⟩ =>
    List.forall_mem_cons.2 ⟨hs.1, value.inside_of_mem_nodes hvalue⟩
  | .assignAt _ place value _, ⟨hs, _, hplace, hvalue⟩ =>
    List.forall_mem_cons.2 ⟨hs.1, List.forall_mem_append.2
      ⟨place.inside_of_mem_nodes hplace, value.inside_of_mem_nodes hvalue⟩⟩
  | .call _ _ args _ _, ⟨hs, _, hcall, _, hname, hargs⟩ =>
    List.forall_mem_cons.2 ⟨hs.1, List.forall_mem_cons.2 ⟨hcall, List.forall_mem_cons.2
      ⟨hname, Expr.inside_of_mem_allNodes args hargs⟩⟩⟩
  | .when cond body _ _, ⟨hs, _, hcond, hblock, hbody⟩ =>
    List.forall_mem_cons.2 ⟨hs, List.forall_mem_append.2 ⟨cond.inside_of_mem_nodes hcond,
      List.forall_mem_cons.2 ⟨hblock.inside, Stmt.inside_of_mem_allNodes body hbody⟩⟩⟩
  | .ifElse cond body _ other otherSpan _, ⟨hs, _, hcond, hblock, hbody, helse, hother⟩ => by
    have hotherSpan : otherSpan.Inside src := by
      rcases helse with hbraces | ⟨nested, rfl, -, rfl⟩
      · exact hbraces.inside
      · exact hother.1.inside
    exact List.forall_mem_cons.2 ⟨hs, List.forall_mem_append.2 ⟨cond.inside_of_mem_nodes hcond,
      List.forall_mem_cons.2 ⟨hblock.inside, List.forall_mem_append.2
        ⟨Stmt.inside_of_mem_allNodes body hbody,
          List.forall_mem_cons.2 ⟨hotherSpan, Stmt.inside_of_mem_allNodes other hother⟩⟩⟩⟩⟩
  | .loop body _ _, ⟨hs, _, hblock, hbody⟩ =>
    List.forall_mem_cons.2 ⟨hs, List.forall_mem_cons.2
      ⟨hblock.inside, Stmt.inside_of_mem_allNodes body hbody⟩⟩
  | .stop _, hs | .ret none _, hs => List.forall_mem_singleton.2 hs.1
  | .fn _ params _ body _ _, ⟨hs, _, hparams, hblock, hbody⟩ =>
    List.forall_mem_cons.2 ⟨hs, List.forall_mem_append.2 ⟨List.forall_mem_map.2 hparams,
      List.forall_mem_cons.2 ⟨hblock.inside, Stmt.inside_of_mem_allNodes body hbody⟩⟩⟩

theorem Stmt.inside_of_mem_allNodes :
    (ss : List Stmt) → Stmt.AllNest src ss → ∀ n ∈ Stmt.allNodes ss, n.2.Inside src
  | [], _ => nofun
  | s :: rest, ⟨hs, hrest⟩ => List.forall_mem_append.2
    ⟨s.inside_of_mem_nodes hs, Stmt.inside_of_mem_allNodes rest hrest⟩

end

end Scriptlet
