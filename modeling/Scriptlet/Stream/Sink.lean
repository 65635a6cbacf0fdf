import Scriptlet.Text.Bytes

/-!
# Sink: where a run writes

A sink takes whole writes or refuses them with a reason. A refused write leaves nothing behind; an
empty write counts as a write. What was written is the concatenation of the writes taken, in order.
A sink may refuse for any reason of its own; the common one is a bound on the bytes it takes.
-/

namespace Scriptlet

/-- A record of the writes taken so far, and what decides on the next one. -/
structure Sink where
  /-- Why a write is refused, if it is: from the writes asked for so far, taken or not, the bytes
  taken so far, and the write. -/
  refuses : (asked taken : Nat) → Bytes → Option Bytes
  /-- How many writes were asked for. -/
  asked : Nat := 0
  /-- The writes taken, the newest first. -/
  chunks : List Bytes := []
  /-- How many bytes were taken. -/
  total : Nat := 0
  /-- The total counts what was taken. -/
  total_eq : total = chunks.flatten.length := by rfl

namespace Sink

/-- Why a bounded sink refuses a write. -/
def refusal : Bytes := utf8 "output limit exceeded"

/-- Refuses a write that would take the total beyond the limit, if there is one. -/
def beyond (limit : Option Nat) (taken : Nat) (chunk : Bytes) : Option Bytes :=
  match limit with
  | none => none
  | some limit => if taken + chunk.length ≤ limit then none else some refusal

/-- An empty sink, perhaps bounded. -/
def empty (limit : Option Nat) : Sink := { refuses := fun _ taken chunk => beyond limit taken chunk }

/-- Asks the sink for a write: whether it is taken, and the sink afterwards. -/
def write (s : Sink) (chunk : Bytes) : Except Bytes Unit × Sink :=
  match s.refuses s.asked s.total chunk with
  | some reason => (.error reason, { s with asked := s.asked + 1 })
  | none =>
    (.ok (), ⟨s.refuses, s.asked + 1, chunk :: s.chunks, chunk.length + s.total,
      by simp [s.total_eq]⟩)

/-- How many writes were taken. -/
def writes (s : Sink) : Nat := s.chunks.length

/-- Everything that was written. -/
def text (s : Sink) : Bytes := s.chunks.reverse.flatten

/-- What was written after the first `n` writes. -/
def textSince (s : Sink) (n : Nat) : Bytes := (s.chunks.take (s.writes - n)).reverse.flatten

theorem total_eq_length_text (s : Sink) : s.total = s.text.length := by
  simp [s.total_eq, text, List.length_flatten]

/-- A write that is taken adds its text at the end. -/
theorem text_write {s t : Sink} {chunk : Bytes} (h : s.write chunk = (.ok (), t)) :
    t.text = s.text ++ chunk := by
  unfold write at h
  split at h
  · simp at h
  · cases h; simp [text]

/-- What was taken stays. -/
theorem chunks_write (s : Sink) (chunk : Bytes) : s.chunks <:+ (s.write chunk).2.chunks := by
  unfold write
  split
  · exact List.suffix_refl _
  · exact List.suffix_cons _ _

end Sink
end Scriptlet
