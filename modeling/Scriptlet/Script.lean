import Scriptlet.Files

/-!
# Script: which program to run

A program is given inline or by a path. A path to a directory stands for the entry point in it.
Inline text wins, and a path given beside it only names the program.
-/

namespace Scriptlet

/-- A program ready to run. -/
structure Script where
  /-- What the program is called in diagnostics. -/
  name : Bytes
  /-- The file it was read from; empty for inline text. -/
  path : Bytes := []
  contents : Bytes
deriving DecidableEq, Repr

/-- Why there is no program to run. -/
inductive ScriptFault where
  | noInput
  | notFound (input : Bytes)
  | noEntryPoint (directory : Bytes)
  | unreadable (path : Bytes)
deriving DecidableEq, Repr

namespace ScriptFault

/-- The key of the error. -/
def key : ScriptFault → Bytes
  | .noInput => utf8 "SOURCE_NO_INPUT"
  | .notFound _ => utf8 "SOURCE_NOT_FOUND"
  | .noEntryPoint _ => utf8 "SOURCE_NO_ENTRYPOINT"
  | .unreadable _ => utf8 "SOURCE_UNREADABLE"

/-- The error in words, after its key. -/
def message (f : ScriptFault) : Bytes :=
  let words := match f with
    | .noInput => utf8 "expected either a file name or contents with --code"
    | .notFound input => utf8 "cannot find " ++ input
    | .noEntryPoint dir => dir ++ utf8 " is a directory without main.oxi or src/main.oxi"
    | .unreadable path => utf8 "error while reading " ++ path
  utf8 "[" ++ f.key ++ utf8 "]: " ++ words

end ScriptFault

namespace Script

/-- What an inline program without a path is called. -/
def inlineName : Bytes := utf8 "<inline>"

/-- The entry points of a directory, in the order in which they are tried. -/
def entryPoints : List Bytes := [utf8 "main.oxi", utf8 "src/main.oxi"]

/-- The file a path stands for. -/
def entryPoint (files : Files) (input : Bytes) : Except ScriptFault Bytes :=
  match files.find input with
  | .error _ => .error (.notFound input)
  | .ok (.file _) => .ok input
  | .ok .directory =>
    match (entryPoints.map (Path.below input)).find? files.isFile with
    | some path => .ok path
    | none => .error (.noEntryPoint input)

/-- The program that inline text and a path, each possibly empty, ask for. -/
def resolve (files : Files) (code input : Bytes) : Except ScriptFault Script :=
  if !code.isEmpty then
    .ok { name := if input.isEmpty then inlineName else input, contents := code }
  else if input.isEmpty then .error .noInput
  else do
    let path ← entryPoint files input
    match files.read path with
    | .ok contents => return { name := input, path, contents }
    | .error _ => throw (.unreadable path)

end Script
end Scriptlet
