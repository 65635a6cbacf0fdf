import Scriptlet.Text.Bytes

/-!
# Node: the tree of a settings file

A node is a scalar, a sequence or a mapping, or an alias for a node elsewhere in the tree. A node
may be an alias for one that it stands in, so aliases refer to nodes by number and the tree itself
is finite.
-/

namespace Scriptlet

namespace Document

/-- A node of a settings file. -/
inductive Node where
  /-- Text with the tag that says what it is, if it has one. Plain text may be more than text. -/
  | scalar (tag : Option Bytes) (isPlain : Bool) (text : Bytes)
  | sequence (items : List Node)
  | mapping (entries : List (Node × Node))
  /-- The alias with the given number in the file; `target` is the number of an anchor. -/
  | alias (number : Nat) (name : Bytes) (target : Nat)
deriving Repr, Inhabited

/-- What stands where nothing is written. -/
def Node.empty : Node := .scalar none true []

end Document

/-- A settings file: its tree, if it has one, and the nodes that have anchors. -/
structure Document where
  root : Option Document.Node
  /-- The nodes with anchors, by their numbers. -/
  anchored : List (Nat × Document.Node) := []
  /-- How many aliases there are. -/
  aliases : Nat := 0
  /-- The number of characters of the file. -/
  size : Nat := 0
deriving Repr, Inhabited

end Scriptlet
