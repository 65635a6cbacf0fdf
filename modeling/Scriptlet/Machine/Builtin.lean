import Scriptlet.Machine
import Scriptlet.Number.Integer
import Scriptlet.Text.Glyph

/-!
# Builtin: the functions every program has

Printing, reading a line, conversions between the scalar types, and lengths. Their names cannot be
taken by declared functions.
-/

namespace Scriptlet

/-- The functions every program has. -/
inductive Builtin where
  | print | println | read | int | bool | str | len
deriving DecidableEq, Repr

namespace Value

/-- The integer a scalar converts to: strings in decimal, truth values as 0 and 1. -/
def toInt? : Value → Option Int64
  | .int n => some n
  | .bool b => some (if b then 1 else 0)
  | .str s => (readInt64 s).toOption
  | .vec _ _ => none

/-- The truth value a scalar converts to: integers unless zero, strings by their spelling. -/
def toBool? : Value → Option Bool
  | .int n => some (n ≠ 0)
  | .bool b => some b
  | .str s =>
    if s = utf8 "true" then some true
    else if s = utf8 "false" then some false
    else none
  | .vec _ _ => none

/-- The characters of a string or the items of a vector, counted. -/
def length? : Value → Option Nat
  | .str s => some (glyphCount s)
  | .vec _ items => some items.length
  | _ => none

end Value

namespace Builtin

/-- All builtin functions. -/
def all : List Builtin := [.print, .println, .read, .int, .bool, .str, .len]

/-- The name a builtin is called by. -/
def name : Builtin → Bytes
  | .print => utf8 "print"
  | .println => utf8 "println"
  | .read => utf8 "read"
  | .int => utf8 "int"
  | .bool => utf8 "bool"
  | .str => utf8 "str"
  | .len => utf8 "len"

/-- The builtin of a name. -/
def ofName? (name : Bytes) : Option Builtin := all.find? (·.name = name)

/-- How many arguments a builtin takes; printing takes any number. -/
def arity? : Builtin → Option Nat
  | .print | .println => none
  | .read => some 0
  | .int | .bool | .str | .len => some 1

/-- The values one after the other as they are printed. -/
def printed (args : List Value) : Bytes := args.flatMap Value.render

/-- Runs a builtin on its arguments. Printing has no result. -/
def apply (b : Builtin) (span argSpan : Span) (args : List Value) : Exec (Option Value) :=
  match b, args with
  | .print, args => do Exec.write span (printed args); return none
  | .println, args => do Exec.write span (printed args ++ utf8 "\n"); return none
  | .read, _ => do return some (.str (← Exec.readLine span))
  | .int, [v] =>
    match v.toInt? with
    | some n => return some (.int n)
    | none => Exec.fail (.conversion v .int) span
  | .bool, [v] =>
    match v.toBool? with
    | some t => return some (.bool t)
    | none => Exec.fail (.conversion v .bool) span
  | .str, [v] => return some (.str v.render)
  | .len, [v] =>
    match v.length? with
    | some n => return some (.int (Int64.ofNat n))
    | none => Exec.mismatch .strOrVector v argSpan
  | _, _ => throw .stuck

end Builtin
end Scriptlet
