import Scriptlet.Text.Bytes

/-!
# Type: the types of the language

A type is a scalar wrapped in any number of vector levels. The `invalid` scalar belongs to no
value; it is what the elements of a scalar would be.
-/

namespace Scriptlet

/-- What a vector type is built over. -/
inductive Scalar where
  | invalid | int | str | bool
deriving DecidableEq, Repr, Inhabited

/-- A scalar under `dims` levels of `vec<…>`. -/
structure Ty where
  scalar : Scalar
  dims : Nat
deriving DecidableEq, Repr, Inhabited

namespace Ty

/-- Integers. -/
def int : Ty := ⟨.int, 0⟩

/-- Strings. -/
def str : Ty := ⟨.str, 0⟩

/-- Truth values. -/
def bool : Ty := ⟨.bool, 0⟩

/-- The type of nothing. -/
def invalid : Ty := ⟨.invalid, 0⟩

/-- The vectors whose elements have type `t`. -/
def vecOf (t : Ty) : Ty := ⟨t.scalar, t.dims + 1⟩

/-- Whether the type is a vector type. -/
def isVec (t : Ty) : Bool := 0 < t.dims

/-- The type of the elements; scalars have none. -/
def elem : Ty → Ty
  | ⟨_, 0⟩ => invalid
  | ⟨s, n + 1⟩ => ⟨s, n⟩

/-- The scalar type with the given name. -/
def ofName? (name : Bytes) : Option Ty :=
  if name = utf8 "int" then some int
  else if name = utf8 "str" then some str
  else if name = utf8 "bool" then some bool
  else none

/-- How the scalar is written, if it can be. -/
def scalarName : Scalar → Option Bytes
  | .invalid => none
  | .int => some (utf8 "int")
  | .str => some (utf8 "str")
  | .bool => some (utf8 "bool")

/-- How the type is written in programs and messages. -/
def render (t : Ty) : Bytes :=
  match scalarName t.scalar with
  | none => utf8 "invalid"
  | some name => Bytes.times t.dims (utf8 "vec<") ++ name ++ Bytes.times t.dims (utf8 ">")

@[simp] theorem elem_vecOf (t : Ty) : t.vecOf.elem = t := rfl

end Ty
end Scriptlet
