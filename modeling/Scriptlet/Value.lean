import Scriptlet.Type

/-!
# Value: what programs compute with

Integers are 64-bit words that wrap, strings are byte strings, and a vector carries the type of its
elements, so that an empty one still has a type. Values never change in place: replacing or adding
an element gives a new vector.
-/

namespace Scriptlet

/-- A value of the language. -/
inductive Value where
  | int (n : Int64)
  | str (s : Bytes)
  | bool (b : Bool)
  | vec (elem : Ty) (items : List Value)
deriving Repr, Inhabited

namespace Value

/-- The type of a value. A vector's type is the one it carries, whatever its items are. -/
def type : Value → Ty
  | .int _ => .int
  | .str _ => .str
  | .bool _ => .bool
  | .vec elem _ => elem.vecOf

mutual

/-- How a value is printed: strings as they are, vectors in brackets. -/
def render : Value → Bytes
  | .int n => signedDecimal n.toInt
  | .str s => s
  | .bool true => utf8 "true"
  | .bool false => utf8 "false"
  | .vec _ items => byte '[' :: (renderItems items ++ [byte ']'])

/-- The items of a vector, separated by commas. -/
def renderItems : List Value → Bytes
  | [] => []
  | [v] => render v
  | v :: w :: rest => render v ++ (utf8 ", " ++ renderItems (w :: rest))

end

/-! ## Comparison -/

/-- The order of two integers. -/
def orderInt (a b : Int64) : Ordering := if a < b then .lt else if b < a then .gt else .eq

/-- The order of two truth values: false comes first. -/
def orderBool : Bool → Bool → Ordering
  | false, true => .lt
  | true, false => .gt
  | _, _ => .eq

mutual

/-- Compares two values of one type; there is no order between types. Vectors compare by their
first differing items, a proper beginning coming first. -/
def order? (a b : Value) : Option Ordering :=
  if a.type = b.type then
    match a, b with
    | .int x, .int y => some (orderInt x y)
    | .str x, .str y => some (Bytes.order x y)
    | .bool x, .bool y => some (orderBool x y)
    | .vec _ xs, .vec _ ys => some (orderItems xs ys)
    | _, _ => none
  else none

/-- Compares items pairwise; a pair of different types decides nothing. -/
def orderItems : List Value → List Value → Ordering
  | [], [] => .eq
  | [], _ :: _ => .lt
  | _ :: _, [] => .gt
  | x :: xs, y :: ys =>
    match order? x y with
    | some .lt => .lt
    | some .gt => .gt
    | _ => orderItems xs ys

end

/-- Deep equality: values of different types are never equal. -/
def same (a b : Value) : Bool := order? a b == some .eq

/-! ## Vectors -/

/-- The items of a vector. -/
def items? : Value → Option (List Value)
  | .vec _ items => some items
  | _ => none

/-- The vector with item `i` replaced; none if there is no such item. -/
def with? (v : Value) (i : Nat) (item : Value) : Option Value :=
  match v with
  | .vec elem items => if i < items.length then some (.vec elem (items.set i item)) else none
  | _ => none

/-- The vector with an item added at its end. -/
def push? (v item : Value) : Option Value :=
  match v with
  | .vec elem items => some (.vec elem (items ++ [item]))
  | _ => none

end Value
end Scriptlet
