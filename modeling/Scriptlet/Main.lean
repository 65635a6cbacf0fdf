import Scriptlet.CommandLine.Outcome

/-!
# Main: the program itself

Looks up what a command line may need, carries the line out and passes on what came of it.
-/

namespace Scriptlet.Terminal

/-- The texts in a line that may be paths: whole words, and what follows an equals sign or an at
sign. -/
def mayBePaths (line : List Bytes) : List Bytes :=
  line.flatMap fun word =>
    [word] ++ (Bytes.cut (byte '=') word).2.toList ++
      (if word.head? = some (byte '@') then [word.tail] else [])

/-- The paths that carrying out a line may lead to. -/
def paths (line : List Bytes) : List Bytes :=
  [utf8 ".env", Site.staticPath, Site.pagePath] ++
    (mayBePaths line).flatMap fun p => p :: Script.entryPoints.map (Path.below p)

/-- What stands at a path, if anything does. -/
def lookUp (path : Bytes) : IO (Option (Bytes × Option Bytes)) := do
  match String.fromUTF8? ⟨path.toArray⟩ with
  | none => return none
  | some name =>
    try
      let contents ← IO.FS.readBinFile name
      return some (path, some contents.data.toList)
    catch
      | .inappropriateType .. => return some (path, none)
      | _ => return none

/-- The variables that are set. -/
def environment : IO Environment :=
  Settings.variables.filterMapM fun name => do
    return (← IO.getEnv name).map fun value => (utf8 name, utf8 value)

/-- Everything a stream still has, after what was read of it. -/
partial def drain (stream : IO.FS.Stream) (seen : ByteArray) : IO ByteArray := do
  let more ← stream.read 65536
  if more.isEmpty then return seen else drain stream (seen ++ more)

end Scriptlet.Terminal

open Scriptlet in
/-- Carries out the command line. -/
def main (args : List String) : IO UInt32 := do
  let line := args.map utf8
  let files : Files := ⟨← (Terminal.paths line).filterMapM Terminal.lookUp⟩
  let stdin ← Terminal.drain (← IO.getStdin) .empty
  let outcome := CommandLine.execute files (← Terminal.environment) stdin.data.toList line
  (← IO.getStdout).write ⟨outcome.out.toArray⟩
  (← IO.getStderr).write ⟨outcome.err.toArray⟩
  return (outcome.code % 256).toNat.toUInt32
