import Scriptlet.Span
import Scriptlet.Type

/-!
# Program: the syntax trees of the language

Every node knows the span of source it came from. Conditions, bodies and declarations hold their
statements directly, with the span of the braces beside them; `else if` is an else branch with a
single `if` in it, whose span stands for the missing braces.
-/

namespace Scriptlet

/-- The binary operators. -/
inductive BinOp where
  | add | sub | mul | div | pow
  | eq | ne | gt | lt | ge | le
deriving DecidableEq, Repr

/-- How the operator is written. -/
def BinOp.symbol : BinOp → Bytes
  | .add => utf8 "+"
  | .sub => utf8 "-"
  | .mul => utf8 "*"
  | .div => utf8 "/"
  | .pow => utf8 "^"
  | .eq => utf8 "=="
  | .ne => utf8 "!="
  | .gt => utf8 ">"
  | .lt => utf8 "<"
  | .ge => utf8 ">="
  | .le => utf8 "<="

/-- Expressions. -/
inductive Expr where
  | int (n : Int64) (span : Span)
  | str (s : Bytes) (span : Span)
  | bool (b : Bool) (span : Span)
  | ident (name : Bytes) (span : Span)
  | vec (elems : List Expr) (span : Span)
  | neg (operand : Expr) (span : Span)
  | binary (op : BinOp) (left right : Expr) (span : Span)
  | call (name : Bytes) (nameSpan : Span) (args : List Expr) (span : Span)
  | index (target index : Expr) (span : Span)
deriving Repr, Inhabited

/-- The span of an expression. -/
def Expr.span : Expr → Span
  | .int _ s | .str _ s | .bool _ s | .ident _ s | .vec _ s | .neg _ s => s
  | .binary _ _ _ s | .call _ _ _ s | .index _ _ s => s

/-- A parameter of a function; its span is that of the name. -/
structure Param where
  name : Bytes
  type : Ty
  span : Span
deriving DecidableEq, Repr

/-- Statements. -/
inductive Stmt where
  | letVar (name : Bytes) (nameSpan : Span) (type : Option Ty) (value : Expr) (span : Span)
  | assign (name : Bytes) (value : Expr) (span : Span)
  | assignAt (name : Bytes) (index value : Expr) (span : Span)
  /-- A call whose result is dropped; `span` includes the semicolon, `callSpan` does not. -/
  | call (name : Bytes) (nameSpan : Span) (args : List Expr) (callSpan : Span) (span : Span)
  | when (cond : Expr) (body : List Stmt) (bodySpan : Span) (span : Span)
  | ifElse (cond : Expr) (body : List Stmt) (bodySpan : Span)
      (other : List Stmt) (otherSpan : Span) (span : Span)
  | loop (body : List Stmt) (bodySpan : Span) (span : Span)
  | stop (span : Span)
  | ret (value : Option Expr) (span : Span)
  | exit (value : Expr) (span : Span)
  | fn (name : Bytes) (params : List Param) (result : Option Ty)
      (body : List Stmt) (bodySpan : Span) (span : Span)
deriving Repr, Inhabited

/-- The span of a statement. -/
def Stmt.span : Stmt → Span
  | .letVar _ _ _ _ s | .assign _ _ s | .assignAt _ _ _ s | .call _ _ _ _ s => s
  | .when _ _ _ s | .ifElse _ _ _ _ _ s | .loop _ _ s | .stop s => s
  | .ret _ s | .exit _ s | .fn _ _ _ _ _ s => s

/-- A program is its statements in order. -/
abbrev Program := List Stmt

end Scriptlet
