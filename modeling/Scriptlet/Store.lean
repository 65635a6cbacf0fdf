import Scriptlet.Digest.Sha256
import Scriptlet.Store.Recent

/-!
# Store: parsed programs kept for reuse

A store keeps the programs used last under the digest of their source and counts, in words of 64
bits, how often a program was found and missed. Dropping all programs keeps the counts.
-/

namespace Scriptlet

/-- A count is shown as the number that its word stands for. -/
instance coeCount : Coe UInt64 Nat := ⟨UInt64.toNat⟩

/-- A store of programs, whatever represents them. -/
structure Store (α : Type) where
  programs : Recent Bytes α
  hits : UInt64 := 0
  misses : UInt64 := 0

/-- Usage of a store. -/
structure StoreStats where
  entries : Nat
  capacity : Nat
  hits : UInt64
  misses : UInt64
deriving DecidableEq, Repr

namespace Store

variable {α : Type}

/-- Why there is no store of a capacity below one. -/
def capacityRefusal : Bytes := utf8 "program cache capacity must be positive"

/-- An empty store; its capacity must be positive. -/
def create? (capacity : Int) : Option (Store α) :=
  if capacity ≤ 0 then none else some { programs := { capacity := capacity.toNat } }

/-- The key of a program's source. -/
def key (source : Bytes) : Bytes := Sha256.hexDigest source

/-- Looks a key up, counting the outcome. -/
def get (s : Store α) (k : Bytes) : Option α × Store α :=
  match s.programs.get? k with
  | (some a, programs) => (some a, { s with programs, hits := s.hits + 1 })
  | (none, programs) => (none, { s with programs, misses := s.misses + 1 })

/-- Keeps a program under a key. -/
def add (s : Store α) (k : Bytes) (a : α) : Store α := { s with programs := s.programs.add k a }

/-- Keeps a program, if there is one. -/
def add? (s : Store α) (k : Bytes) : Option α → Store α
  | some a => s.add k a
  | none => s

/-- Drops every program and keeps the counts. -/
def purge (s : Store α) : Store α := { s with programs := s.programs.clear }

/-- The current usage. -/
def stats (s : Store α) : StoreStats :=
  ⟨s.programs.size, s.programs.capacity, s.hits, s.misses⟩

end Store
end Scriptlet
