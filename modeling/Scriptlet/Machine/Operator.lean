import Scriptlet.Fault
import Scriptlet.Program

/-!
# Operator: what the binary operators compute

Sums join two integers or two strings, the other arithmetic takes integers, and comparisons take
two values of one type. Integers wrap at 64 bits. An operand that does not fit is reported on the
side it stands on.
-/

namespace Scriptlet

/-- The operands of a binary operator. -/
inductive Side where
  | left | right
deriving DecidableEq, Repr

/-- Multiplies `acc` by `base` to the power `n`, squaring at most `bits` times. -/
def squareMultiply : Nat → Int64 → Int64 → Nat → Int64
  | 0, acc, _, _ => acc
  | bits + 1, acc, base, n =>
    if n = 0 then acc
    else squareMultiply bits (if n % 2 = 1 then acc * base else acc) (base * base) (n / 2)

/-- `base` to the power `n`; an exponent of 64 bits has no more than 63 digits. -/
def power (base : Int64) (n : Nat) : Int64 := squareMultiply 64 1 base n

namespace BinOp

/-- A value that is not what the operator needs. -/
def reject (side : Side) (need : Need) (got : Value) : Except (Side × Fault) Value :=
  .error (side, .mismatch need got.type)

/-- Sums of integers and of strings. -/
def sum (a b : Value) : Except (Side × Fault) Value :=
  match a with
  | .int x =>
    match b with
    | .int y => .ok (.int (x + y))
    | _ => reject .right .int b
  | .str x =>
    match b with
    | .str y => .ok (.str (x ++ y))
    | _ => reject .right .str b
  | _ => reject .left .strOrInt a

/-- The integer operators; a quotient is cut towards zero. -/
def arithmetic (op : Int64 → Int64 → Except (Side × Fault) Int64) (a b : Value) :
    Except (Side × Fault) Value :=
  match a with
  | .int x =>
    match b with
    | .int y => (op x y).map .int
    | _ => reject .right .int b
  | _ => reject .left .int a

/-- Division, refused for a zero divisor. -/
def quotient (x y : Int64) : Except (Side × Fault) Int64 :=
  if y = 0 then .error (.right, .divisionByZero) else .ok (x / y)

/-- Exponentiation, refused for a negative exponent. -/
def exponential (x y : Int64) : Except (Side × Fault) Int64 :=
  if y < 0 then .error (.right, .negativeExponent) else .ok (power x y.toInt.toNat)

/-- A comparison of two values of one type. -/
def comparison (accepts : Ordering → Bool) (a b : Value) : Except (Side × Fault) Value :=
  match Value.order? a b with
  | some o => .ok (.bool (accepts o))
  | none => reject .right (.like a.type) b

/-- The result of an operator on two values. -/
def apply : BinOp → Value → Value → Except (Side × Fault) Value
  | .add => sum
  | .sub => arithmetic fun x y => .ok (x - y)
  | .mul => arithmetic fun x y => .ok (x * y)
  | .div => arithmetic quotient
  | .pow => arithmetic exponential
  | .eq => comparison Ordering.isEq
  | .ne => comparison Ordering.isNe
  | .gt => comparison Ordering.isGT
  | .lt => comparison Ordering.isLT
  | .ge => comparison Ordering.isGE
  | .le => comparison Ordering.isLE

end BinOp
end Scriptlet
