import Scriptlet.Document.Lexer
import Scriptlet.Document.Node

/-!
# Reader: settings files as trees

Nodes are read by descent over the tokens. A file is its first document; what follows the document
is not read, beyond the few tokens that show where it ends.
-/

namespace Scriptlet.Document

/-- The tokens to come, and the names met so far. -/
structure Reader where
  lexer : Lexer
  /-- What the handles of tags stand for. -/
  handles : List (Bytes × Bytes) := []
  /-- The numbers of anchors by their names, the latest first. -/
  anchors : List (Bytes × Nat) := []
  /-- The nodes with anchors, by their numbers. -/
  anchored : List (Nat × Node) := []
  /-- How many aliases were met. -/
  aliases : Nat := 0
deriving Repr

/-- Steps of the reader; none for a malformed file. -/
abbrev Reading := StateT Reader Option

namespace Reader

/-- A step of the lexer. -/
def lex {α : Type} (step : Lexing α) : Reading α := do
  let r ← get
  let (a, lexer) ← step r.lexer
  set { r with lexer }
  return a

/-- The next token, which stays. -/
def peek : Reading Token := lex Lexer.peek

/-- Takes the next token. -/
def take : Reading Unit := lex Lexer.take

/-! ## Directives -/

/-- The handles that every document knows. -/
def usualHandles : List (Bytes × Bytes) :=
  [(utf8 "!", utf8 "!"), (utf8 "!!", utf8 "tag:yaml.org,2002:")]

/-- The directives at this place: at most one version, which must be the known one, and no handle
twice. -/
def directives : Nat → Bool → List (Bytes × Bytes) → Reading (List (Bytes × Bytes))
  | 0, _, _ => failure
  | bound + 1, versioned, found => do
    match ← peek with
    | .directive (.version major minor) =>
      if versioned || (major, minor) != (1, 1) then failure
      take
      directives bound true found
    | .directive (.handle name stem) =>
      if (found.lookup name).isSome then failure
      take
      directives bound versioned ((name, stem) :: found)
    | _ => return found

/-! ## Properties -/

/-- The name and the tag of a node. -/
structure Properties where
  anchor : Option Bytes := none
  tag : Option TagMark := none
deriving DecidableEq, Repr

/-- An anchor, a tag, or both in either order. -/
def properties : Reading Properties := do
  match ← peek with
  | .anchor name =>
    take
    match ← peek with
    | .tag mark => take; return { anchor := some name, tag := some mark }
    | _ => return { anchor := some name }
  | .tag mark =>
    take
    match ← peek with
    | .anchor name => take; return { anchor := some name, tag := some mark }
    | _ => return { tag := some mark }
  | _ => return {}

/-- A tag in full. A handle that nothing was said about is malformed. -/
def fullTag (mark : TagMark) : Reading Bytes := do
  if mark.handle.isEmpty then return mark.suffix
  else
    match (← get).handles.lookup mark.handle with
    | none => failure
    | some stem => return stem ++ mark.suffix

/-- Gives the next anchor number to a name. -/
def number (name : Bytes) : Reading Nat := do
  let r ← get
  let n := r.anchors.length
  set { r with anchors := (name, n) :: r.anchors }
  return n

/-- Records the node that an anchor names. -/
def record (anchor : Option Nat) (n : Node) : Reading Node := do
  match anchor with
  | none => return n
  | some k =>
    modify fun r => { r with anchored := (k, n) :: r.anchored }
    return n

/-- An alias; its name must be known. -/
def aliasOf (name : Bytes) : Reading Node := do
  let r ← get
  match r.anchors.lookup name with
  | none => failure
  | some target =>
    set { r with aliases := r.aliases + 1 }
    return .alias r.aliases name target

/-! ## Nodes -/

/-- Whether an item of a block goes without a node. -/
def endsItem : Token → Bool
  | .item | .blockEnd => true
  | _ => false

/-- Whether an item of a sequence that has no block of its own goes without a node. -/
def endsLooseItem : Token → Bool
  | .item | .key | .value | .blockEnd => true
  | _ => false

/-- Whether a key or a value of a block goes without a node. -/
def endsEntry : Token → Bool
  | .key | .value | .blockEnd => true
  | _ => false

/-- Whether a key in braces goes without a node. -/
def endsFlowKey : Token → Bool
  | .value | .comma | .flowMappingEnd => true
  | _ => false

/-- Whether a value in braces goes without a node. -/
def endsFlowValue : Token → Bool
  | .comma | .flowMappingEnd => true
  | _ => false

/-- Whether the key of a pair in brackets goes without a node. -/
def endsPairKey : Token → Bool
  | .value | .comma | .flowSequenceEnd => true
  | _ => false

/-- Whether the value of a pair in brackets goes without a node. -/
def endsPairValue : Token → Bool
  | .comma | .flowSequenceEnd => true
  | _ => false

mutual

/-- A node. Blocks are read only outside brackets, and items without a block of their own only
after a key. -/
def node (inBlock loose : Bool) : Nat → Reading Node
  | 0 => failure
  | bound + 1 => do
    match ← peek with
    | .alias name =>
      take
      aliasOf name
    | _ =>
      let ps ← properties
      let full ← match ps.tag with
        | some mark => some <$> fullTag mark
        | none => pure none
      let tag := full.filter fun t => t != utf8 "!" && !t.isEmpty
      let t ← peek
      let startsItems := loose && t == .item
      let startsBlock := inBlock && (t == .blockSequence || t == .blockMapping)
      let isScalar := match t with
        | .scalar _ _ => true
        | _ => false
      let starts := startsItems || startsBlock || isScalar || t == .flowSequence ||
        t == .flowMapping
      if !starts && ps.anchor.isNone && full.isNone then failure
      let anchor ← match ps.anchor with
        | some name => some <$> number name
        | none => pure none
      if startsItems then
        record anchor (.sequence (← looseItems bound))
      else
        match t with
        | .scalar isPlain text =>
          take
          record anchor (.scalar tag isPlain text)
        | .flowSequence =>
          take
          record anchor (.sequence (← flowItems true bound))
        | .flowMapping =>
          take
          record anchor (.mapping (← flowEntries true bound))
        | .blockSequence =>
          if inBlock then
            take
            record anchor (.sequence (← blockItems bound))
          else record anchor (.scalar tag true [])
        | .blockMapping =>
          if inBlock then
            take
            record anchor (.mapping (← blockEntries bound))
          else record anchor (.scalar tag true [])
        | _ => record anchor (.scalar tag true [])

/-- A node unless it is left out. -/
def nodeUnless (ends : Token → Bool) (inBlock loose : Bool) : Nat → Reading Node
  | 0 => failure
  | bound + 1 => do
    if ends (← peek) then return .empty
    else node inBlock loose bound

/-- The items of a block. -/
def blockItems : Nat → Reading (List Node)
  | 0 => failure
  | bound + 1 => do
    match ← peek with
    | .item =>
      take
      let first ← nodeUnless endsItem true false bound
      return first :: (← blockItems bound)
    | .blockEnd =>
      take
      return []
    | _ => failure

/-- Items that stand no further right than the key they belong to. -/
def looseItems : Nat → Reading (List Node)
  | 0 => failure
  | bound + 1 => do
    match ← peek with
    | .item =>
      take
      let first ← nodeUnless endsLooseItem true false bound
      return first :: (← looseItems bound)
    | _ => return []

/-- The entries of a block. -/
def blockEntries : Nat → Reading (List (Node × Node))
  | 0 => failure
  | bound + 1 => do
    match ← peek with
    | .key =>
      take
      let key ← nodeUnless endsEntry true true bound
      let value ← match ← peek with
        | .value =>
          take
          nodeUnless endsEntry true true bound
        | _ => pure .empty
      return (key, value) :: (← blockEntries bound)
    | .blockEnd =>
      take
      return []
    | _ => failure

/-- The items in brackets. An item may be a single entry of a mapping. -/
def flowItems (isFirst : Bool) : Nat → Reading (List Node)
  | 0 => failure
  | bound + 1 => do
    let mut t ← peek
    if t != .flowSequenceEnd && !isFirst then
      if t != .comma then failure
      take
      t ← peek
    match t with
    | .flowSequenceEnd =>
      take
      return []
    | .key =>
      take
      let pair ← flowPair bound
      return pair :: (← flowItems false bound)
    | _ =>
      let first ← node false false bound
      return first :: (← flowItems false bound)

/-- A single entry of a mapping in brackets, after the mark of its key. If the key is left out, so
is the token that follows. -/
def flowPair : Nat → Reading Node
  | 0 => failure
  | bound + 1 => do
    let key ←
      if endsPairKey (← peek) then
        take
        pure .empty
      else node false false bound
    let value ← match ← peek with
      | .value =>
        take
        nodeUnless endsPairValue false false bound
      | _ => pure .empty
    return .mapping [(key, value)]

/-- The entries in braces. A key may stand without a value. -/
def flowEntries (isFirst : Bool) : Nat → Reading (List (Node × Node))
  | 0 => failure
  | bound + 1 => do
    let mut t ← peek
    if t != .flowMappingEnd && !isFirst then
      if t != .comma then failure
      take
      t ← peek
    match t with
    | .flowMappingEnd =>
      take
      return []
    | .key =>
      take
      let key ← nodeUnless endsFlowKey false false bound
      let value ← match ← peek with
        | .value =>
          take
          nodeUnless endsFlowValue false false bound
        | _ => pure .empty
      return (key, value) :: (← flowEntries false bound)
    | _ =>
      let key ← node false false bound
      let _ ← peek
      return (key, .empty) :: (← flowEntries false bound)

end

/-! ## Documents -/

/-- Whether a document has no content before this token. -/
def endsContent : Token → Bool
  | .directive _ | .documentStart | .documentEnd | .fileEnd => true
  | _ => false

/-- The content of the first document, if there is a document. -/
def document (bound : Nat) : Reading (Option Node) := do
  take
  match ← peek with
  | .fileEnd => return none
  | .directive _ | .documentStart =>
    let said ← directives bound false []
    modify fun r => { r with handles := said ++ usualHandles }
    if (← peek) != .documentStart then failure
    take
    content true
  | _ =>
    modify fun r => { r with handles := usualHandles }
    content false
where
  /-- The node of a document, and the token after it. A document with a mark may be empty. -/
  content (marked : Bool) : Reading (Option Node) := do
    let root ←
      if marked && endsContent (← peek) then pure .empty else node true false bound
    let _ ← peek
    return some root

end Reader

/-- Reads a settings file; none if it is malformed. -/
def read? (s : Bytes) : Option Document := do
  let cs ← characters? s
  let start : Reader := { lexer := .ofCharacters cs }
  let (root, r) ← (do let _ ← Reader.peek; Reader.document (16 * (cs.length + 8))).run start
  return { root, anchored := r.anchored, aliases := r.aliases, size := cs.length }

end Scriptlet.Document
