import Scriptlet.CommandLine.Word
import Scriptlet.Number.Integer

/-!
# CommandLine: from words to a command with its flags

Flags and arguments come in any order. The first argument names the command, and if it does not,
or if a flag is met that makes no sense so far, the usual command is taken to be meant. A word that
makes no sense after that ends the reading. A flag may be given once.
-/

namespace Scriptlet

/-- What is wrong with a command line. -/
inductive LineFault where
  | unknown (word : Word)
  | noArgument (word : Word)
  | unexpected (word : Word)
  | unreadable (why : ArgumentsFault)
  | repeated (flag : Flag)
  | integer (text : Bytes) (why : NumberFault)
  | number (text : Bytes) (why : NumberFault)
deriving DecidableEq, Repr

/-- The fault in words. -/
def LineFault.message : LineFault → Bytes
  | .unknown (.long name) => utf8 "unknown long flag '" ++ (Word.long name).render ++ utf8 "'"
  | .unknown word => utf8 "unknown short flag '" ++ word.render ++ utf8 "'"
  | .noArgument word => utf8 "expected argument for flag '" ++ word.render ++ utf8 "'"
  | .unexpected word => utf8 "unexpected " ++ word.render
  | .unreadable why => why.message
  | .repeated flag => utf8 "flag '" ++ flag.name ++ utf8 "' cannot be repeated"
  | .integer text why =>
    utf8 "strconv.ParseInt: parsing " ++ quoted text ++ utf8 ": " ++ why.message
  | .number text why =>
    utf8 "strconv.ParseFloat: parsing " ++ quoted text ++ utf8 ": " ++ why.message

/-- A command line as far as it is read. -/
structure CommandLine where
  words : Words
  command : Option Command := none
  /-- The flags that were given, in order. -/
  given : List Given := []
  /-- The arguments that were given, in order. -/
  arguments : List Bytes := []
deriving Repr

namespace CommandLine

/-- How many words are followed, through files that name each other too. -/
def limit : Nat := 16777216

/-- The word that comes next; it stays next. -/
def peek (files : Files) (l : CommandLine) : Word × CommandLine :=
  let (word, words) := l.words.peek files l.command limit
  (word, { l with words })

/-- Drops the word that comes next. -/
def skip (l : CommandLine) : CommandLine := { l with words := l.words.skip }

/-- The flag a word stands for, and whether it turns the flag off. -/
def flag? (l : CommandLine) : Word → Option (Flag × Bool)
  | .long name =>
    match Flag.named? l.command name with
    | some f => some (f, false)
    | none =>
      let no := utf8 "no-"
      if no.isPrefixOf name then
        (Flag.named? l.command (name.drop no.length)).map fun f => (f, true)
      else none
  | .short letter => (Flag.lettered? l.command letter).map fun f => (f, false)
  | _ => none

/-- Adds a flag. -/
def give (g : Given) (l : CommandLine) : CommandLine := { l with given := l.given ++ [g] }

/-- The line with the usual command, unless one is chosen. -/
def settled (l : CommandLine) : CommandLine := { l with command := some (l.command.getD .usual) }

/-- What comes of one word. -/
inductive Progress where
  | goOn (l : CommandLine)
  | stop (fault : Option LineFault) (l : CommandLine)

/-- What comes of a flag that makes no sense: the usual command is tried before the reading ends. -/
def missed (fault : LineFault) (l : CommandLine) : Progress :=
  if l.command.isNone then .goOn l.settled else .stop (some fault) l

/-- Reads the flag that `word`, which comes next, stands for. A flag without the argument it needs
is gone, and the word in the argument's place then comes twice. -/
def takeFlag (files : Files) (word : Word) (l : CommandLine) : Progress :=
  match l.flag? word with
  | none => l.missed (.unknown word)
  | some (f, off) =>
    if f.isSwitch then .goOn (l.skip.give (.switch f !off))
    else if off then l.missed (.unknown word)
    else
      match l.skip.peek files with
      | (.argument text, l) => .goOn (l.skip.give (.value f text))
      | (other, l) => missed (.noArgument word) { l with words := l.words.push other }

/-- Reads an argument, which comes next, if there is a place for it. -/
def takeArgument (text : Bytes) (l : CommandLine) : Progress :=
  match l.command with
  | none =>
    match Command.ofName? text with
    | some c => .goOn { l.skip with command := some c }
    | none => .goOn l.settled
  | some c =>
    if l.arguments.length < c.arguments then
      .goOn { l.skip with arguments := l.arguments ++ [text] }
    else .stop none l

/-- Reads a word. -/
def step (files : Files) (l : CommandLine) : Progress :=
  match l.peek files with
  | (.argument text, l) => l.takeArgument text
  | (.long name, l) => l.takeFlag files (.long name)
  | (.short letter, l) => l.takeFlag files (.short letter)
  | (_, l) => .stop none l

/-- Reads words until one makes no sense or there are no more. -/
def walk (files : Files) : Nat → CommandLine → Option LineFault × CommandLine
  | 0, l => (some (.unreadable .endless), l)
  | fuel + 1, l =>
    match l.step files with
    | .goOn l => walk files fuel l
    | .stop fault l => (fault, l)

/-- Ends the reading: no word may be left. -/
def close (files : Files) (l : CommandLine) : Option LineFault × CommandLine :=
  match l.settled.peek files with
  | (.finish, l) => (none, l)
  | (.unreadable why, l) => (some (.unreadable why), l)
  | (word, l) => (some (.unexpected word), l)

/-- Reads a whole line. What was read before a fault is kept. -/
def read (files : Files) (line : List Bytes) : Option LineFault × CommandLine :=
  match walk files limit { words := { line } } with
  | (none, l) => close files l
  | (some fault, l) => (some fault, l)

end CommandLine
end Scriptlet
