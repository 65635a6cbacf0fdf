import Scriptlet.Document.Property

/-!
# Token: what a settings file is made of

Tokens are marks and scalars. Blocks, which the text shows by indentation only, start and end with
tokens of their own, and a key has a token before it even where the text has no mark for it.
-/

namespace Scriptlet.Document

/-- A token of a settings file. -/
inductive Token where
  | fileStart | fileEnd
  | directive (said : Directive)
  | documentStart | documentEnd
  | blockSequence | blockMapping | blockEnd
  | flowSequence | flowSequenceEnd | flowMapping | flowMappingEnd
  /-- The dash before an item of a block. -/
  | item
  /-- The comma within brackets. -/
  | comma
  | key | value
  | anchor (name : Bytes)
  | alias (name : Bytes)
  | tag (mark : TagMark)
  | scalar (isPlain : Bool) (text : Bytes)
deriving DecidableEq, Repr

end Scriptlet.Document
