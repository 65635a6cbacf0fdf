import Scriptlet.Program

/-!
# Nodes: the spans of a program in reading order

Each node of a tree with the span it covers, parents before their children and children in the
order of the source. Names that have a span of their own are nodes too.
-/

namespace Scriptlet

/-- What a span belongs to. -/
inductive NodeLabel where
  | letStmt | letName | assign | indexAssign | callStmt | ifStmt | loop | stop | ret | exit
  | fn | param | block
  | int | str | bool | ident | vec | unary | binary | call | callName | index
deriving DecidableEq, Repr

/-- The name a node is listed under. -/
def NodeLabel.name : NodeLabel → String
  | .letStmt => "Let"
  | .letName => "LetName"
  | .assign => "Assign"
  | .indexAssign => "IndexAssign"
  | .callStmt => "CallStmt"
  | .ifStmt => "If"
  | .loop => "Loop"
  | .stop => "Break"
  | .ret => "Return"
  | .exit => "Exit"
  | .fn => "Fn"
  | .param => "Param"
  | .block => "Block"
  | .int => "Int"
  | .str => "Str"
  | .bool => "Bool"
  | .ident => "Ident"
  | .vec => "Vec"
  | .unary => "Unary"
  | .binary => "Binary"
  | .call => "Call"
  | .callName => "CallName"
  | .index => "Index"

/-- A labelled span. -/
abbrev Node := NodeLabel × Span

mutual

/-- The nodes of an expression. -/
def Expr.nodes : Expr → List Node
  | .int _ s => [(.int, s)]
  | .str _ s => [(.str, s)]
  | .bool _ s => [(.bool, s)]
  | .ident _ s => [(.ident, s)]
  | .vec elems s => (.vec, s) :: Expr.allNodes elems
  | .neg operand s => (.unary, s) :: operand.nodes
  | .binary _ left right s => (.binary, s) :: (left.nodes ++ right.nodes)
  | .call _ nameSpan args s => (.call, s) :: (.callName, nameSpan) :: Expr.allNodes args
  | .index target place s => (.index, s) :: (target.nodes ++ place.nodes)

/-- The nodes of several expressions. -/
def Expr.allNodes : List Expr → List Node
  | [] => []
  | e :: rest => e.nodes ++ Expr.allNodes rest

end

mutual

/-- The nodes of a statement. -/
def Stmt.nodes : Stmt → List Node
  | .letVar _ nameSpan _ value s => (.letStmt, s) :: (.letName, nameSpan) :: value.nodes
  | .assign _ value s => (.assign, s) :: value.nodes
  | .assignAt _ index value s => (.indexAssign, s) :: (index.nodes ++ value.nodes)
  | .call _ nameSpan args callSpan s =>
    (.callStmt, s) :: (.call, callSpan) :: (.callName, nameSpan) :: Expr.allNodes args
  | .when cond body bodySpan s =>
    (.ifStmt, s) :: (cond.nodes ++ ((.block, bodySpan) :: Stmt.allNodes body))
  | .ifElse cond body bodySpan other otherSpan s =>
    (.ifStmt, s) :: (cond.nodes ++ ((.block, bodySpan) :: (Stmt.allNodes body ++
      ((.block, otherSpan) :: Stmt.allNodes other))))
  | .loop body bodySpan s => (.loop, s) :: (.block, bodySpan) :: Stmt.allNodes body
  | .stop s => [(.stop, s)]
  | .ret none s => [(.ret, s)]
  | .ret (some value) s => (.ret, s) :: value.nodes
  | .exit value s => (.exit, s) :: value.nodes
  | .fn _ params _ body bodySpan s =>
    (.fn, s) :: (params.map (fun p => (NodeLabel.param, p.span)) ++
      ((.block, bodySpan) :: Stmt.allNodes body))

/-- The nodes of several statements. -/
def Stmt.allNodes : List Stmt → List Node
  | [] => []
  | s :: rest => s.nodes ++ Stmt.allNodes rest

end

end Scriptlet
