import Scriptlet.Diagnostic
import Scriptlet.Number.Integer
import Scriptlet.Text.Blank
import Scriptlet.Text.Digit
import Scriptlet.Text.Letter

/-!
# Lexer: from text to tokens

The scanner reads a source one glyph at a time. Between two glyphs its state is the lexeme it is in
the middle of; a glyph either extends that lexeme or ends it and starts the next one. Reading a
concatenation is therefore reading its parts in turn, and the longest possible lexeme always wins.

Blanks and comments (`#` up to the end of the line) separate tokens and leave no trace.
-/

namespace Scriptlet

namespace Lexer

/-- The sign of one character, if it is one. -/
def sign? (c : Char) : Option Kind :=
  match c with
  | '(' => some .lparen
  | ')' => some .rparen
  | '\x7b' => some .lcurly
  | '\x7d' => some .rcurly
  | '[' => some .lbracket
  | ']' => some .rbracket
  | ',' => some .comma
  | ';' => some .semicolon
  | ':' => some .colon
  | '=' => some .assign
  | '+' => some .plus
  | '-' => some .minus
  | '*' => some .star
  | '/' => some .slash
  | '^' => some .caret
  | '>' => some .gt
  | '<' => some .lt
  | _ => none

/-- The sign of two characters, if they form one. `**` is another spelling of `^`. -/
def pair? (c d : Char) : Option Kind :=
  match c, d with
  | '=', '=' => some .eq
  | '!', '=' => some .notEq
  | '>', '=' => some .gtEq
  | '<', '=' => some .ltEq
  | '-', '>' => some .arrow
  | '*', '*' => some .caret
  | _, _ => none

/-- Whether a sign of two characters may begin with `c`. -/
def startsPair (c : Char) : Bool :=
  c == '=' || c == '!' || c == '>' || c == '<' || c == '-' || c == '*'

/-- What a backslash and `c` stand for inside a string. -/
def escape? (c : Char) : Option Char :=
  match c with
  | 't' => some '\t'
  | 'b' => some (Char.ofNat 8)
  | 'n' => some '\n'
  | 'r' => some '\r'
  | 'f' => some (Char.ofNat 12)
  | '"' => some '"'
  | '\\' => some '\\'
  | _ => none

/-- A character that may begin a word. -/
def startsWord (c : Char) : Bool := c == '_' || isLetter c

/-- A character that may continue a word. -/
def continuesWord (c : Char) : Bool := startsWord c || isDigit c

/-- The lexeme the scanner is in the middle of. Texts are collected in reverse. -/
inductive Lexeme where
  /-- Between tokens. -/
  | gap
  | comment
  /-- A sign that the next character may still extend. -/
  | sign (start : Nat) (c : Char)
  | word (start : Nat) (rev : Bytes)
  | number (start : Nat) (rev : Bytes)
  /-- Inside a string, after the opening quote. -/
  | text (start : Nat) (rev : Bytes)
  /-- Inside a string, after a backslash. -/
  | escape (start : Nat) (rev : Bytes)
deriving DecidableEq, Repr

/-- The scanner between two glyphs: the open lexeme, the offset reached, and the tokens found so
far, the latest first. -/
structure State where
  lexeme : Lexeme
  pos : Nat
  rev : List Token
deriving DecidableEq, Repr

/-- The scanner at the start of a source. -/
def State.initial : State := ⟨.gap, 0, []⟩

/-- Adds a token that reaches from `start` to `stop`. -/
def State.emit (s : State) (kind : Kind) (literal : Bytes) (start stop : Nat) : State :=
  ⟨.gap, stop, ⟨kind, literal, .between start stop⟩ :: s.rev⟩

/-- Ends the open lexeme at the offset reached. -/
def close (s : State) : Except Diagnostic State :=
  match s.lexeme with
  | .gap | .comment => .ok ⟨.gap, s.pos, s.rev⟩
  | .sign start c =>
    match sign? c with
    | some kind => .ok (s.emit kind [] start s.pos)
    | none => .error ⟨.strayCharacter c, .between start s.pos⟩
  | .word start rev =>
    let word := rev.reverse
    match Kind.ofWord word with
    | .ident => .ok (s.emit .ident word start s.pos)
    | keyword => .ok (s.emit keyword [] start s.pos)
  | .number start rev =>
    let digits := rev.reverse
    match readInt64 digits with
    | .ok _ => .ok (s.emit .int digits start s.pos)
    | .error _ => .error ⟨.literalTooLarge, .between start s.pos⟩
  | .text start _ | .escape start _ => .error ⟨.unterminatedString, .between start s.pos⟩

/-- Starts a new lexeme with the glyph, no other being open. -/
def start (s : State) (g : Glyph) : Except Diagnostic State :=
  let stop := s.pos + g.width
  if g.char == '#' then .ok ⟨.comment, stop, s.rev⟩
  else if isBlank g.char then .ok ⟨.gap, stop, s.rev⟩
  else if startsPair g.char then .ok ⟨.sign s.pos g.char, stop, s.rev⟩
  else
    match sign? g.char with
    | some kind => .ok (s.emit kind [] s.pos stop)
    | none =>
      if g.char == '"' then .ok ⟨.text s.pos [], stop, s.rev⟩
      else if isAsciiDigit g.char then .ok ⟨.number s.pos g.bytes.reverse, stop, s.rev⟩
      else if startsWord g.char then .ok ⟨.word s.pos g.bytes.reverse, stop, s.rev⟩
      else .error ⟨.strayCharacter g.char, .between s.pos stop⟩

/-- Ends the open lexeme and starts a new one with the glyph. -/
def restart (s : State) (g : Glyph) : Except Diagnostic State := do start (← close s) g

/-- Reads one glyph. -/
def step (s : State) (g : Glyph) : Except Diagnostic State :=
  let stop := s.pos + g.width
  match s.lexeme with
  | .gap => start s g
  | .comment => .ok ⟨if g.char == '\n' then .gap else .comment, stop, s.rev⟩
  | .sign from_ c =>
    match pair? c g.char with
    | some kind => .ok (s.emit kind [] from_ stop)
    | none => restart s g
  | .word from_ rev =>
    if continuesWord g.char then .ok ⟨.word from_ (g.bytes.reverse ++ rev), stop, s.rev⟩
    else restart s g
  | .number from_ rev =>
    if isAsciiDigit g.char then .ok ⟨.number from_ (g.bytes.reverse ++ rev), stop, s.rev⟩
    else restart s g
  | .text from_ rev =>
    if g.char == '"' then .ok (s.emit .str rev.reverse from_ stop)
    else if g.char == '\\' then .ok ⟨.escape from_ rev, stop, s.rev⟩
    else .ok ⟨.text from_ ((encodeChar g.char).reverse ++ rev), stop, s.rev⟩
  | .escape from_ rev =>
    match escape? g.char with
    | some c => .ok ⟨.text from_ ((encodeChar c).reverse ++ rev), stop, s.rev⟩
    | none => .error ⟨.unknownEscape, .between (s.pos - 1) stop⟩

end Lexer

namespace Token

/-- Tokens of a glyph sequence read from a given state, with an end-of-file token at the end. -/
def lexFrom (s : Lexer.State) (gs : List Glyph) : Except Diagnostic (List Token) := do
  let s ← gs.foldlM Lexer.step s
  let s ← Lexer.close s
  return (⟨.eof, [], .between s.pos s.pos⟩ :: s.rev).reverse

/-- The tokens of a source, or the first place where it has none. -/
def lex (source : Bytes) : Except Diagnostic (List Token) :=
  lexFrom .initial (glyphs source)

end Token
end Scriptlet
