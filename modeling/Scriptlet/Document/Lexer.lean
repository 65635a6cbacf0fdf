import Scriptlet.Document.Token

/-!
# Lexer: the tokens of a settings file, one after the other

A scalar turns out to be a key only when its colon is met, so tokens are held back while one of them
may still become a key. Such candidates are kept one for each level of brackets. Blocks are told by
columns: a token further right opens a block, one further left closes blocks. Tokens are found no
earlier than they are needed, and what is never asked for is never judged.
-/

namespace Scriptlet.Document

/-- A place at which a key may have started. -/
structure Candidate where
  /-- Whether it may still be a key. -/
  live : Bool
  /-- Whether nothing but a key can stand there. -/
  required : Bool
  /-- The number of the token that the key would start with. -/
  token : Nat
  index : Nat
  line : Nat
  column : Nat
deriving DecidableEq, Repr

/-- The tokens found so far, and what decides how to go on. -/
structure Lexer where
  cursor : Cursor
  /-- The tokens that are found and not yet taken. -/
  queue : List Token := []
  /-- How many tokens were taken. -/
  taken : Nat := 0
  started : Bool := false
  /-- Whether the first token of the queue is settled. -/
  settled : Bool := false
  /-- The columns from this one on are within the innermost block; zero outside all blocks. -/
  margin : Nat := 0
  /-- The margins of the blocks around. -/
  outer : List Nat := []
  /-- The candidates, for no brackets first. -/
  candidates : Array Candidate := #[]
  /-- Tokens that may start a key, with the levels of their candidates. -/
  held : List (Nat × Nat) := []
  /-- Whether a key may start here. -/
  keyAllowed : Bool := false
deriving Repr

/-- Steps of the lexer; none for a malformed file. -/
abbrev Lexing := StateT Lexer Option

namespace Lexer

/-- A lexer before the first token. -/
def ofCharacters (cs : List Char) : Lexer := { cursor := { rest := cs } }

/-- How many brackets are open. -/
def flow (l : Lexer) : Nat := l.candidates.size - 1

/-- The number of the next token that is found. -/
def nextNumber (l : Lexer) : Nat := l.taken + l.queue.length

/-- How deep brackets and blocks may be nested. -/
def depthBound : Nat := 10000

/-- How long a key may be. -/
def keyBound : Nat := 1024

/-- Adds a token at the end of the queue. -/
def push (t : Token) : Lexing Unit := modify fun l => { l with queue := l.queue ++ [t] }

/-- Adds a token before the one of the given number, or at the end if that one was taken. -/
def insert (number : Nat) (t : Token) : Lexing Unit := modify fun l =>
  if l.taken ≤ number then { l with queue := l.queue.insertIdx (number - l.taken) t }
  else { l with queue := l.queue ++ [t] }

/-- Allows or forbids a key at the next place. -/
def allowKey (allowed : Bool) : Lexing Unit := modify fun l => { l with keyAllowed := allowed }

/-- Moves to another place. -/
def goTo (c : Cursor) : Lexing Unit := modify fun l => { l with cursor := c }

/-! ## Candidates -/

/-- Whether the candidate of a level is still one. It is none if its line has ended or if it is too
far back. -/
def isLive (level : Nat) : Lexing Bool := do
  let l ← get
  match l.candidates[level]? with
  | none => return false
  | some k =>
    if !k.live then return false
    else if l.cursor.line ≤ k.line && l.cursor.index ≤ k.index + keyBound then return true
    else if k.required then failure
    else
      set { l with candidates := l.candidates.setIfInBounds level { k with live := false } }
      return false

/-- Gives up the candidate of the current level. -/
def dropCandidate : Lexing Unit := do
  let l ← get
  match l.candidates.back? with
  | none => return ()
  | some k =>
    if !k.live then return ()
    else if k.required then failure
    else
      set { l with
        candidates := l.candidates.setIfInBounds l.flow { k with live := false }
        held := l.held.filter (·.1 != k.token) }

/-- Makes the next token a candidate if a key is allowed here. -/
def markCandidate : Lexing Unit := do
  if (← get).keyAllowed then
    dropCandidate
    modify fun l =>
      let k : Candidate :=
        { live := true
          required := l.flow == 0 && l.margin == l.cursor.column + 1
          token := l.nextNumber
          index := l.cursor.index
          line := l.cursor.line
          column := l.cursor.column }
      { l with
        candidates := l.candidates.setIfInBounds l.flow k
        held := (k.token, l.flow) :: l.held.filter (·.1 != k.token) }

/-- Opens a level of brackets. -/
def openFlow : Lexing Unit := do
  modify fun l =>
    let c := l.cursor
    let k : Candidate := ⟨false, false, l.nextNumber, c.index, c.line, c.column⟩
    { l with candidates := l.candidates.push k }
  if depthBound < (← get).flow then failure

/-- Closes a level of brackets, if one is open. -/
def closeFlow : Lexing Unit := modify fun l =>
  if l.flow = 0 then l
  else
    match l.candidates.back? with
    | none => l
    | some k =>
      { l with candidates := l.candidates.pop, held := l.held.filter (·.1 != k.token) }

/-! ## Blocks -/

/-- Opens a block at a column that is further right than the current block. -/
def openBlock (column : Nat) (before : Option Nat) (t : Token) : Lexing Unit := do
  let l ← get
  if l.flow = 0 ∧ l.margin ≤ column then
    set { l with margin := column + 1, outer := l.margin :: l.outer }
    if depthBound < (← get).outer.length then failure
    match before with
    | some number => insert number t
    | none => push t

/-- Closes the blocks that start right of a margin: the inner ones come first. -/
def closeBlocksTo (margin : Nat) : List Nat → Lexing Unit
  | [] => return ()
  | outer :: rest => do
    if margin < (← get).margin then
      push .blockEnd
      modify fun l => { l with margin := outer, outer := rest }
      closeBlocksTo margin rest

/-- Closes blocks as far as the margin, outside brackets. -/
def closeBlocks (margin : Nat) : Lexing Unit := do
  let l ← get
  if l.flow = 0 then closeBlocksTo margin l.outer

/-! ## The next token -/

/-- Goes to the next token, over blanks, line breaks and comments. Tabs are blanks only where no key
may start, and a line break outside brackets makes room for a key. -/
def skipToToken : Nat → Lexing Unit
  | 0 => return ()
  | bound + 1 => do
    let l ← get
    let c := l.cursor
    let c := if c.column = 0 ∧ c.isAt '\uFEFF' then c.step else c
    let isGap (ch : Char) : Bool := ch == ' ' || (ch == '\t' && (0 < l.flow || !l.keyAllowed))
    let c := (c.run isGap).2
    let c := if c.isAt '#' then c.skipComments (c.rest.length + 1) else c
    if c.rest.head?.any isBreak then
      set { l with cursor := c.crossLine.2, keyAllowed := l.keyAllowed || l.flow = 0 }
      skipToToken bound
    else set { l with cursor := c }

/-- What the file starts with. -/
def fetchStart : Lexing Unit := do
  push .fileStart
  modify fun l =>
    let vacant : Candidate := ⟨false, false, 0, 0, 0, 0⟩
    { l with started := true, keyAllowed := true, candidates := #[vacant] }

/-- What the file ends with: all blocks are closed. -/
def fetchEnd : Lexing Unit := do
  modify fun l =>
    if l.cursor.column = 0 then l
    else { l with cursor := { l.cursor with column := 0, line := l.cursor.line + 1 } }
  closeBlocks 0
  dropCandidate
  allowKey false
  push .fileEnd

/-- Ends all blocks before a line that stands outside of documents. -/
def leaveBlocks : Lexing Unit := do
  closeBlocks 0
  dropCandidate
  allowKey false

/-- A directive. -/
def fetchDirective : Lexing Unit := do
  leaveBlocks
  let (said, next) ← (← get).cursor.directive
  goTo next
  push (.directive said)

/-- The start or the end of a document. -/
def fetchMarker (t : Token) : Lexing Unit := do
  leaveBlocks
  goTo ((← get).cursor.advance 3)
  push t

/-- A mark of one character. -/
def fetchMark (t : Token) : Lexing Unit := do
  goTo (← get).cursor.step
  push t

/-- An opening bracket. -/
def fetchOpening (t : Token) : Lexing Unit := do
  markCandidate
  openFlow
  allowKey true
  fetchMark t

/-- A closing bracket. -/
def fetchClosing (t : Token) : Lexing Unit := do
  dropCandidate
  closeFlow
  allowKey false
  fetchMark t

/-- A comma. -/
def fetchComma : Lexing Unit := do
  dropCandidate
  allowKey true
  fetchMark .comma

/-- A dash, which may open a block. -/
def fetchItem : Lexing Unit := do
  let l ← get
  if l.flow = 0 then
    if !l.keyAllowed then failure
    openBlock l.cursor.column none .blockSequence
  dropCandidate
  allowKey true
  fetchMark .item

/-- A question mark, after which a key of any kind stands. -/
def fetchKey : Lexing Unit := do
  let l ← get
  if l.flow = 0 then
    if !l.keyAllowed then failure
    openBlock l.cursor.column none .blockMapping
  dropCandidate
  allowKey (l.flow = 0)
  fetchMark .key

/-- A colon. If there is a candidate, it was a key. -/
def fetchValue : Lexing Unit := do
  let l ← get
  if ← isLive l.flow then
    match l.candidates[l.flow]? with
    | none => failure
    | some k =>
      insert k.token .key
      openBlock k.column (some k.token) .blockMapping
      modify fun l =>
        { l with
          candidates := l.candidates.setIfInBounds l.flow { k with live := false }
          held := l.held.filter (·.1 != k.token) }
      allowKey false
  else
    if l.flow = 0 then
      if !l.keyAllowed then failure
      openBlock l.cursor.column none .blockMapping
    allowKey (l.flow = 0)
  fetchMark .value

/-- An anchor or an alias. -/
def fetchName (t : Bytes → Token) : Lexing Unit := do
  markCandidate
  allowKey false
  let (name, next) ← (← get).cursor.name
  goTo next
  push (t (encoded name))

/-- A tag. -/
def fetchTag : Lexing Unit := do
  markCandidate
  allowKey false
  let (mark, next) ← (← get).cursor.tag
  goTo next
  push (.tag mark)

/-- A block of lines. -/
def fetchBlock : Lexing Unit := do
  dropCandidate
  allowKey true
  let l ← get
  let p ← l.cursor.block l.margin
  goTo p.next
  push (.scalar false (encoded p.text))

/-- Text in quotes. -/
def fetchQuoted : Lexing Unit := do
  markCandidate
  allowKey false
  let p ← (← get).cursor.quoted
  goTo p.next
  push (.scalar false (encoded p.text))

/-- Plain text. -/
def fetchPlain : Lexing Unit := do
  markCandidate
  allowKey false
  let l ← get
  let p ← l.cursor.plain (0 < l.flow) l.margin
  goTo p.next
  if p.broken then allowKey true
  push (.scalar true (encoded p.text))

/-- The characters with a meaning of their own, which start no plain text. -/
def indicators : List Char :=
  ['-', '?', ':', ',', '[', ']', '\x7b', '\x7d', '#', '&', '*', '!', '|', '>', '\'', '"', '%', '@',
    '`']

/-- Whether plain text may start this way. -/
def startsPlain (inFlow : Bool) : List Char → Bool
  | [] => false
  | ch :: rest =>
    (!isSpacing ch && !indicators.contains ch) ||
      (ch == '-' && !rest.head?.any isBlank) ||
      (!inFlow && (ch == '?' || ch == ':') && !endsWord rest)

/-- The token that starts with the given character, within a document. -/
def fetchContent (ch : Char) (rest : List Char) : Lexing Unit := do
  let inFlow := 0 < (← get).flow
  if ch == '[' then fetchOpening .flowSequence
  else if ch == '\x7b' then fetchOpening .flowMapping
  else if ch == ']' then fetchClosing .flowSequenceEnd
  else if ch == '\x7d' then fetchClosing .flowMappingEnd
  else if ch == ',' then fetchComma
  else if ch == '-' && endsWord rest then fetchItem
  else if ch == '?' && (inFlow || endsWord rest) then fetchKey
  else if ch == ':' && (inFlow || endsWord rest) then fetchValue
  else if ch == '*' then fetchName .alias
  else if ch == '&' then fetchName .anchor
  else if ch == '!' then fetchTag
  else if (ch == '|' || ch == '>') && !inFlow then fetchBlock
  else if ch == '\'' || ch == '"' then fetchQuoted
  else if startsPlain inFlow (ch :: rest) then fetchPlain
  else failure

/-- Finds the next token. A comment behind it goes with it, unless it is a dash. -/
def fetch : Lexing Unit := do
  if !(← get).started then fetchStart
  else
    skipToToken ((← get).cursor.rest.length + 1)
    closeBlocks ((← get).cursor.column + 1)
    let c := (← get).cursor
    match c.rest with
    | [] => fetchEnd
    | ch :: rest =>
      if c.column = 0 ∧ ch = '%' then fetchDirective
      else if c.isAtTriple '-' then fetchMarker .documentStart
      else if c.isAtTriple '.' then fetchMarker .documentEnd
      else
        fetchContent ch rest
        modify fun l =>
          if l.queue.getLast? = some .item then l
          else { l with cursor := l.cursor.skipLineComment }

/-! ## Taking tokens -/

/-- How many tokens are found before the first of them is settled. -/
def readAhead : Nat := 3

/-- Finds tokens until the first one is settled. -/
def settle : Nat → Lexing Unit
  | 0 => failure
  | bound + 1 => do
    let l ← get
    let waits ←
      if l.queue.length < readAhead then pure true
      else
        match l.held.lookup l.taken with
        | some level => isLive level
        | none => pure false
    if waits then
      fetch
      settle bound

/-- The next token, which stays. -/
def peek : Lexing Token := do
  let l ← get
  if !l.settled then
    settle (l.cursor.rest.length + 2 * readAhead)
    modify fun l => { l with settled := true }
  match (← get).queue with
  | t :: _ => return t
  | [] => failure

/-- Takes the next token. -/
def take : Lexing Unit := modify fun l =>
  { l with queue := l.queue.drop 1, taken := l.taken + 1, settled := false }

end Lexer
end Scriptlet.Document
