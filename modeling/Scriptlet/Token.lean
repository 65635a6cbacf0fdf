import Scriptlet.Span
import Scriptlet.Text.Quoted

/-!
# Token: the words and signs of a program

A token has a kind, its place in the source and, for words, numbers and strings, the text it
stands for. Kinds beyond the language's own are kept by their number, so that a token list made
elsewhere can still be described.
-/

namespace Scriptlet

/-- The lexical classes. -/
inductive Kind where
  | eof
  | ident | int | str
  | kLet | kIf | kElse | kLoop | kBreak | kReturn | kExit | kFn | kTrue | kFalse
  | lparen | rparen | lcurly | rcurly | lbracket | rbracket
  | comma | semicolon | colon | arrow | assign
  | plus | minus | star | slash | caret
  | eq | notEq | gt | lt | gtEq | ltEq
  /-- A kind that the language does not have. -/
  | other (number : Int)
deriving DecidableEq, Repr, Inhabited

namespace Kind

/-- The kinds of the language in their numbering, from 0. -/
def all : List Kind :=
  [.eof, .ident, .int, .str,
    .kLet, .kIf, .kElse, .kLoop, .kBreak, .kReturn, .kExit, .kFn, .kTrue, .kFalse,
    .lparen, .rparen, .lcurly, .rcurly, .lbracket, .rbracket,
    .comma, .semicolon, .colon, .arrow, .assign,
    .plus, .minus, .star, .slash, .caret,
    .eq, .notEq, .gt, .lt, .gtEq, .ltEq]

/-- What messages call the kind; keywords and signs are called by their spelling. -/
def name : Kind → Bytes
  | .eof => utf8 "end of file"
  | .ident => utf8 "identifier"
  | .int => utf8 "integer"
  | .str => utf8 "string"
  | .kLet => utf8 "let"
  | .kIf => utf8 "if"
  | .kElse => utf8 "else"
  | .kLoop => utf8 "loop"
  | .kBreak => utf8 "break"
  | .kReturn => utf8 "return"
  | .kExit => utf8 "exit"
  | .kFn => utf8 "fn"
  | .kTrue => utf8 "true"
  | .kFalse => utf8 "false"
  | .lparen => utf8 "("
  | .rparen => utf8 ")"
  | .lcurly => utf8 "\x7b"
  | .rcurly => utf8 "\x7d"
  | .lbracket => utf8 "["
  | .rbracket => utf8 "]"
  | .comma => utf8 ","
  | .semicolon => utf8 ";"
  | .colon => utf8 ":"
  | .arrow => utf8 "->"
  | .assign => utf8 "="
  | .plus => utf8 "+"
  | .minus => utf8 "-"
  | .star => utf8 "*"
  | .slash => utf8 "/"
  | .caret => utf8 "^"
  | .eq => utf8 "=="
  | .notEq => utf8 "!="
  | .gt => utf8 ">"
  | .lt => utf8 "<"
  | .gtEq => utf8 ">="
  | .ltEq => utf8 "<="
  | .other n => utf8 "token(" ++ signedDecimal n ++ utf8 ")"

/-- The keywords of the language. -/
def keywords : List Kind :=
  [.kLet, .kIf, .kElse, .kLoop, .kBreak, .kReturn, .kExit, .kFn, .kTrue, .kFalse]

/-- The kind of a word: a keyword's own kind, or an identifier. -/
def ofWord (word : Bytes) : Kind :=
  (keywords.find? fun k => k.name = word).getD .ident

end Kind

/-- A token of a source text. `literal` is the word, the digits or the decoded string. -/
structure Token where
  kind : Kind
  literal : Bytes
  span : Span
deriving DecidableEq, Repr, Inhabited

namespace Token

/-- How a token is shown in a token listing. -/
def render (t : Token) : Bytes :=
  match t.kind with
  | .ident => utf8 "ident(" ++ t.literal ++ utf8 ")"
  | .int => utf8 "int(" ++ t.literal ++ utf8 ")"
  | .str => utf8 "str(" ++ quoted t.literal ++ utf8 ")"
  | k => k.name

/-- How a syntax message names the token it found. -/
def describe (t : Token) : Bytes :=
  match t.kind with
  | .ident => utf8 "`" ++ t.literal ++ utf8 "`"
  | .int => utf8 "integer `" ++ t.literal ++ utf8 "`"
  | .str => utf8 "string " ++ quoted t.literal
  | .eof => utf8 "end of file"
  | k => utf8 "`" ++ k.name ++ utf8 "`"

/-- A token listing; end-of-file tokens are left out. -/
def listing (tokens : List Token) : Bytes :=
  let shown := (tokens.filter fun t => t.kind != .eof).map render
  byte '[' :: ((utf8 ", ").intercalate shown ++ [byte ']'])

end Token
end Scriptlet
