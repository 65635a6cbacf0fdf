import Scriptlet.Text.Bytes

/-!
# Input: where a run reads lines

Lines are read through a buffer of fixed size. Filling the buffer takes as much of the source as
there is room for, so what a reader has buffered is gone from the source even if the reader never
hands it out. When the source is used up, reading gives what is left, or fails if the source fails
in place of ending.
-/

namespace Scriptlet

/-- A source of bytes that ends, or fails with a reason, once it is used up. -/
structure Source where
  rest : Bytes := []
  failure : Option Bytes := none
deriving DecidableEq, Repr

/-- A source with a reader's buffer in front of it. -/
structure Input where
  buffer : Bytes := []
  source : Source := {}
deriving DecidableEq, Repr

namespace Input

/-- How many bytes the buffer holds. -/
def capacity : Nat := 4096

/-- The end of a line. -/
def newline : UInt8 := byte '\n'

/-- A reader that has read nothing yet. -/
def ofSource (s : Source) : Input := { source := s }

/-- Reads up to and including the next newline, after what was `gathered` of the line already. A
full buffer without a newline moves to the gathered part; a failure loses it. -/
def nextLine (gathered : Bytes) (i : Input) : Except Bytes Bytes × Input :=
  match i.buffer.cut newline with
  | (front, some rest) => (.ok (gathered ++ front ++ [newline]), { i with buffer := rest })
  | (_, none) =>
    match _hrest : i.source.rest with
    | [] =>
      let spent := { i with buffer := [] }
      match i.source.failure with
      | some reason => (.error reason, spent)
      | none => (.ok (gathered ++ i.buffer), spent)
    | b :: more =>
      if capacity ≤ i.buffer.length then
        nextLine (gathered ++ i.buffer)
          ⟨(b :: more).take capacity, { i.source with rest := (b :: more).drop capacity }⟩
      else
        let room := capacity - i.buffer.length
        nextLine gathered
          ⟨i.buffer ++ (b :: more).take room, { i.source with rest := (b :: more).drop room }⟩
termination_by i.source.rest.length
decreasing_by
  · simp only [_hrest, capacity, List.length_drop, List.length_cons]; omega
  · simp only [_hrest, capacity, List.length_drop, List.length_cons] at *; omega

/-- The next line without its end, a newline or a carriage return and a newline. At the end of the
source it is what is left, possibly nothing. -/
def readLine (i : Input) : Except Bytes Bytes × Input :=
  match nextLine [] i with
  | (.error reason, rest) => (.error reason, rest)
  | (.ok line, rest) => (.ok (Bytes.dropEnd (utf8 "\r") (Bytes.dropEnd (utf8 "\n") line)), rest)

end Input
end Scriptlet
