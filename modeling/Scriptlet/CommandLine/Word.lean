import Scriptlet.CommandLine.Flag
import Scriptlet.Files
import Scriptlet.Text.Blank
import Scriptlet.Text.Glyph
import Scriptlet.Text.Quoted

/-!
# Word: the words of a command line

Two dashes introduce a flag by its name, perhaps with an argument after an equals sign; one dash
introduces letters. Letters of switches can be put together, and what follows the letter of a flag
that takes an argument is its argument. So how letters are read depends on the flags that are
known when they are. A single dash is an argument without text. An at sign stands for the lines of a
file, and after a word of just two dashes all words are arguments.
-/

namespace Scriptlet

/-- Why a file of arguments does not yield any. -/
inductive ArgumentsFault where
  | unnamed
  | unopened (path : Bytes) (why : Files.ReadFault)
  | unread (path : Bytes) (why : Files.ReadFault)
  | longLine (path : Bytes)
  /-- Files that name each other were not followed to their end. -/
  | endless
deriving DecidableEq, Repr

/-- The fault in words. -/
def ArgumentsFault.message : ArgumentsFault → Bytes
  | .unnamed => utf8 "expected @ file to expand arguments from"
  | .unopened path why =>
    utf8 "failed to open arguments file " ++ quoted path ++ utf8 ": " ++ why.message
  | .unread path why =>
    utf8 "failed to read arguments from " ++ quoted path ++ utf8 ": " ++ why.message
  | .longLine path =>
    utf8 "failed to read arguments from " ++ quoted path ++ utf8 ": bufio.Scanner: token too long"
  | .endless => utf8 "arguments files without end"

/-- A word of a command line. -/
inductive Word where
  | long (name : Bytes)
  | short (letter : Bytes)
  | argument (text : Bytes)
  | unreadable (why : ArgumentsFault)
  /-- There are no more words. -/
  | finish
deriving DecidableEq, Repr

/-- A word as it is written. -/
def Word.render : Word → Bytes
  | .long name => utf8 "--" ++ name
  | .short letter => utf8 "-" ++ letter
  | .argument text => text
  | .unreadable why => utf8 "error: " ++ why.message
  | .finish => utf8 "<EOL>"

/-- Words being read. -/
structure Words where
  /-- The whole line. -/
  line : List Bytes
  /-- What is left to read. -/
  rest : List Bytes := line
  /-- How many pieces were read; letters put together count one by one. -/
  taken : Nat := 0
  /-- Whether all further words are arguments. -/
  plain : Bool := false
  /-- Words that were read already and come next, the first one first. -/
  ahead : List Word := []
deriving Repr

namespace Words

/-- The word of two dashes. -/
def divider : Bytes := utf8 "--"

/-- Longer lines of a file of arguments are refused. -/
def maxLine : Nat := 65535

/-- The lines of a text, without the carriage returns that end some of them. -/
def lines (text : Bytes) : List Bytes :=
  let pieces := text.split (byte '\n')
  let whole := if pieces.getLast? = some [] then pieces.dropLast else pieces
  whole.map (Bytes.dropEnd (utf8 "\r"))

/-- The words in a file of arguments: its lines but the blank ones and those that start with a
number sign. -/
def ofFile (files : Files) (path : Bytes) : Except ArgumentsFault (List Bytes) :=
  if path.isEmpty then .error .unnamed
  else
    match files.read path with
    | .error (.unopened p why) => .error (.unopened path (.unopened p why))
    | .error why => .error (.unread path why)
    | .ok text =>
      if (text.split (byte '\n')).any (maxLine < ·.length) then .error (.longLine path)
      else
        .ok ((lines text).filter fun line =>
          line.head? != some (byte '#') && !(trimBlanks line).isEmpty)

/-- Puts a word back. -/
def push (word : Word) (w : Words) : Words := { w with ahead := word :: w.ahead }

/-- Drops the word that comes next, which was looked at. -/
def skip (w : Words) : Words := { w with ahead := w.ahead.tail }

/-- Reads the letter that `b` starts; what follows it is its argument or stands for letters. -/
def letter (chosen : Option Command) (b : UInt8) (more : Bytes) (w : Words) : Word × Words :=
  let glyph := Glyph.decode b more
  let letter := encodeChar glyph.char
  let tail := more.drop (glyph.width - 1)
  let takesArgument := (Flag.lettered? chosen letter).any (!·.isSwitch)
  let w :=
    if tail.isEmpty then w
    else if takesArgument then w.push (.argument tail)
    else { w with rest := (byte '-' :: tail) :: w.rest }
  (.short letter, w)

/-- Reads a new word. -/
def fresh (files : Files) (chosen : Option Command) : Nat → Words → Word × Words
  | 0, w => (.unreadable .endless, w)
  | fuel + 1, w =>
    match w.rest with
    | [] => (.finish, w)
    | text :: rest =>
      let divided := 0 < w.taken && w.line[w.taken - 1]? == some divider
      let w := { w with rest, taken := w.taken + 1, plain := w.plain || divided }
      if w.plain then (.argument text, w)
      else if text = divider then fresh files chosen fuel w
      else
        match text with
        | 45 :: 45 :: body =>
          match Bytes.cut (byte '=') body with
          | (name, some value) => (.long name, w.push (.argument value))
          | (name, none) => (.long name, w)
        | [45] => (.argument [], w)
        | 45 :: b :: more => letter chosen b more w
        | 64 :: path =>
          match ofFile files path with
          | .ok words => fresh files chosen fuel { w with rest := words ++ w.rest }
          | .error why => (.unreadable why, w)
        | _ => (.argument text, w)

/-- The word that comes next; it stays next. -/
def peek (files : Files) (chosen : Option Command) (fuel : Nat) (w : Words) : Word × Words :=
  match w.ahead with
  | word :: _ => (word, w)
  | [] =>
    let (word, w) := fresh files chosen fuel w
    (word, w.push word)

end Words
end Scriptlet
