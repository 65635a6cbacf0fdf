import Scriptlet.Fault

/-!
# Diagnostic: faults with a place

A diagnostic is a fault and the span of source it is about. A notice is what of it is shown: the
error key, the message, the note and the span, whatever they come from.
-/

namespace Scriptlet

/-- A language error at a place of the program. -/
structure Diagnostic where
  fault : Fault
  span : Span
deriving Repr

/-- An error as it is reported, in words. -/
structure Notice where
  key : Bytes
  message : Bytes
  note : Bytes
  span : Span
deriving DecidableEq, Repr

namespace Notice

/-- A notice whose message stands in for an empty note. -/
def make (key message note : Bytes) (span : Span) : Notice :=
  ⟨key, message, if note.isEmpty then message else note, span⟩

/-- The notice in one line. -/
def headline (n : Notice) : Bytes := utf8 "error[" ++ n.key ++ utf8 "]: " ++ n.message

end Notice

namespace Diagnostic

/-- The family of the fault. -/
def code (d : Diagnostic) : Code := d.fault.code

/-- What the diagnostic shows. -/
def notice (d : Diagnostic) : Notice :=
  Notice.make d.code.key d.fault.message d.fault.note d.span

end Diagnostic
end Scriptlet
