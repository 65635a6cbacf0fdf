/-!
# Span: stretches of a source text

A span is a half-open range of byte offsets. Spans made while reading a source lie inside it; spans
handed in from outside may be anything, so the ends are integers.
-/

namespace Scriptlet

/-- The byte offsets from `start` up to, not including, `stop`. -/
structure Span where
  start : Int
  stop : Int
deriving DecidableEq, Repr, Inhabited

namespace Span

/-- The span between two offsets of a text. -/
def between (start stop : Nat) : Span := ⟨start, stop⟩

/-- The empty span at the start of the text, for errors that have no place of their own. -/
def origin : Span := ⟨0, 0⟩

/-- The smallest span that covers both. -/
def join (a b : Span) : Span :=
  ⟨if b.start < a.start then b.start else a.start, if b.stop > a.stop then b.stop else a.stop⟩

/-- The span without its first byte. An offset is a word, and the greatest word is followed by the
least; a span that holds a byte begins below the greatest. -/
def tail (s : Span) : Span :=
  ⟨if s.start < s.stop then s.start + 1 else (s.start + 1).bmod (Nat.pow 2 64), s.stop⟩

theorem tail_between {a b : Nat} (h : a < b) : (between a b).tail = between (a + 1) b := by
  have hlt : (between a b).start < (between a b).stop := Int.ofNat_lt.2 h
  unfold tail
  rw [if_pos hlt]
  rfl

end Span
end Scriptlet
