/-!
# Recent: a bounded list of the entries used last

Entries stand in order of use, the latest first, with no key twice. Looking an entry up or adding
it makes it the latest; an entry that no longer fits is dropped from the far end.
-/

namespace Scriptlet

/-- At most `capacity` entries, the latest used first. -/
structure Recent (κ α : Type) where
  capacity : Nat
  entries : List (κ × α) := []
deriving Repr

namespace Recent

variable {κ α : Type} [BEq κ]

/-- How many entries are held. -/
def size (r : Recent κ α) : Nat := r.entries.length

/-- The entries of all other keys. -/
def without (k : κ) (l : List (κ × α)) : List (κ × α) := l.filter fun e => !(e.1 == k)

/-- What is held under a key, without using it. -/
def peek? (r : Recent κ α) (k : κ) : Option α := r.entries.lookup k

/-- What is held under a key, which becomes the latest. -/
def get? (r : Recent κ α) (k : κ) : Option α × Recent κ α :=
  match r.peek? k with
  | none => (none, r)
  | some a => (some a, { r with entries := (k, a) :: without k r.entries })

/-- Holds `a` under `k` as the latest, dropping what no longer fits. -/
def add (r : Recent κ α) (k : κ) (a : α) : Recent κ α :=
  { r with entries := ((k, a) :: without k r.entries).take r.capacity }

/-- Drops every entry. -/
def clear (r : Recent κ α) : Recent κ α := { r with entries := [] }

end Recent
end Scriptlet
