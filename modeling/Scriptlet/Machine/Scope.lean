import Scriptlet.Value

/-!
# Scope: variables and what they hold

A binding remembers the type its variable was declared with, which later assignments must keep. A
scope holds at most one binding of a name, in the order in which the names were first declared.
-/

namespace Scriptlet

/-- A variable's declared type and current value. -/
structure Slot where
  type : Ty
  value : Value
deriving Repr

/-- The variables of one level. -/
abbrev Scope := List (Bytes × Slot)

namespace Scope

/-- The slot of a variable. -/
def find? (name : Bytes) : Scope → Option Slot
  | [] => none
  | (n, slot) :: rest => if n = name then some slot else find? name rest

/-- Binds a name, replacing an earlier binding of it. -/
def declare (name : Bytes) (slot : Slot) : Scope → Scope
  | [] => [(name, slot)]
  | (n, old) :: rest => if n = name then (n, slot) :: rest else (n, old) :: declare name slot rest

/-- Gives a bound variable a new value and keeps its type; unbound names are left unbound. -/
def assign (name : Bytes) (v : Value) : Scope → Scope
  | [] => []
  | (n, old) :: rest =>
    if n = name then (n, { old with value := v }) :: rest else (n, old) :: assign name v rest

theorem find?_declare_of_ne {name other : Bytes} (h : other ≠ name) (slot : Slot) (s : Scope) :
    (s.declare name slot).find? other = s.find? other := by
  induction s with
  | nil => grind [declare, find?]
  | cons b rest ih => by_cases hb : b.1 = name <;> grind [declare, find?]

end Scope
end Scriptlet
