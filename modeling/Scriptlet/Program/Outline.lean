import Scriptlet.Program
import Scriptlet.Text.Quoted

/-!
# Outline: programs as indented text

One line per node, each child two spaces deeper than its parent. Spans are left out; everything
else about the tree is shown.
-/

namespace Scriptlet

/-- A line of an outline and its depth. -/
abbrev OutlineLine := Nat × Bytes

mutual

/-- The outline of an expression at the given depth. -/
def Expr.outline (depth : Nat) : Expr → List OutlineLine
  | .int n _ => [(depth, utf8 "Int " ++ signedDecimal n.toInt)]
  | .str s _ => [(depth, utf8 "Str " ++ quoted s)]
  | .bool b _ => [(depth, utf8 "Bool " ++ utf8 (if b then "true" else "false"))]
  | .ident name _ => [(depth, utf8 "Ident " ++ name)]
  | .vec elems _ => (depth, utf8 "Vec") :: Expr.outlines (depth + 1) elems
  | .neg operand _ => (depth, utf8 "Unary -") :: operand.outline (depth + 1)
  | .binary op left right _ =>
    (depth, utf8 "Binary " ++ op.symbol) ::
      (left.outline (depth + 1) ++ right.outline (depth + 1))
  | .call name _ args _ => (depth, utf8 "Call " ++ name) :: Expr.outlines (depth + 1) args
  | .index target place _ =>
    (depth, utf8 "Index") :: (target.outline (depth + 1) ++ place.outline (depth + 1))

/-- The outlines of several expressions, one after the other. -/
def Expr.outlines (depth : Nat) : List Expr → List OutlineLine
  | [] => []
  | e :: rest => e.outline depth ++ Expr.outlines depth rest

end

/-- The signature line of a function. -/
def signature (name : Bytes) (params : List Param) (result : Option Ty) : Bytes :=
  let shown := params.map fun p => p.name ++ utf8 ": " ++ p.type.render
  let head := utf8 "Fn " ++ name ++ utf8 "(" ++ (utf8 ", ").intercalate shown ++ utf8 ")"
  match result with
  | none => head
  | some t => head ++ utf8 " -> " ++ t.render

mutual

/-- The outline of a statement at the given depth. -/
def Stmt.outline (depth : Nat) : Stmt → List OutlineLine
  | .letVar name _ none value _ => (depth, utf8 "Let " ++ name) :: value.outline (depth + 1)
  | .letVar name _ (some t) value _ =>
    (depth, utf8 "Let " ++ name ++ utf8 ": " ++ t.render) :: value.outline (depth + 1)
  | .assign name value _ => (depth, utf8 "Assign " ++ name) :: value.outline (depth + 1)
  | .assignAt name index value _ =>
    (depth, utf8 "IndexAssign " ++ name) ::
      (index.outline (depth + 1) ++ value.outline (depth + 1))
  | .call name _ args _ _ => (depth, utf8 "Call " ++ name) :: Expr.outlines (depth + 1) args
  | .when cond body _ _ =>
    (depth, utf8 "If") :: (cond.outline (depth + 1) ++
      ((depth + 1, utf8 "Then") :: Stmt.outlines (depth + 2) body))
  | .ifElse cond body _ other _ _ =>
    (depth, utf8 "If") :: (cond.outline (depth + 1) ++
      ((depth + 1, utf8 "Then") :: (Stmt.outlines (depth + 2) body ++
        ((depth + 1, utf8 "Else") :: Stmt.outlines (depth + 2) other))))
  | .loop body _ _ => (depth, utf8 "Loop") :: Stmt.outlines (depth + 1) body
  | .stop _ => [(depth, utf8 "Break")]
  | .ret none _ => [(depth, utf8 "Return")]
  | .ret (some value) _ => (depth, utf8 "Return") :: value.outline (depth + 1)
  | .exit value _ => (depth, utf8 "Exit") :: value.outline (depth + 1)
  | .fn name params result body _ _ =>
    (depth, signature name params result) :: Stmt.outlines (depth + 1) body

/-- The outlines of several statements, one after the other. -/
def Stmt.outlines (depth : Nat) : List Stmt → List OutlineLine
  | [] => []
  | s :: rest => s.outline depth ++ Stmt.outlines depth rest

end

/-- A line with two spaces for each level of depth. -/
def OutlineLine.render (l : OutlineLine) : Bytes := Bytes.times l.1 (utf8 "  ") ++ l.2

/-- The outline of a whole program. -/
def Program.outline (p : Program) : Bytes :=
  (utf8 "\n").intercalate
    (((0, utf8 "Program") :: Stmt.outlines 1 p).map OutlineLine.render)

end Scriptlet
