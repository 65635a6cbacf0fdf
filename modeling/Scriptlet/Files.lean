import Scriptlet.Text.Bytes

/-!
# Files: a tree of files around a working directory

A tree is given by the paths of its files and of its directories that need not hold anything; every
beginning of a path is a directory too. A path is followed part by part, so that it can go through
directories only, and a path that ends in a slash must lead to one. Paths and their parts have a
greatest length. Outside the working directory there are only directories, with nothing in them that
has a name.
-/

namespace Scriptlet

/-- Paths relative to the working directory with the contents of files; directories have none. -/
structure Files where
  entries : List (Bytes × Option Bytes) := []
deriving Repr

/-- What a path leads to. -/
inductive Found where
  | file (contents : Bytes)
  | directory
deriving DecidableEq, Repr

/-- Why a path leads nowhere. -/
inductive PathFault where
  | missing
  /-- The path goes through a file. -/
  | throughFile
  /-- The path, or one part of it, is too long to be one. -/
  | tooLong
  /-- The path holds a zero byte. -/
  | malformed
deriving DecidableEq, Repr

namespace PathFault

/-- The wording of the fault. -/
def message : PathFault → Bytes
  | .missing => utf8 "no such file or directory"
  | .throughFile => utf8 "not a directory"
  | .tooLong => utf8 "file name too long"
  | .malformed => utf8 "invalid argument"

end PathFault

namespace Path

/-- The byte between the parts of a path. -/
def slash : UInt8 := byte '/'

/-- Paths of this length or more are too long. -/
def lengthBound : Nat := 4096

/-- The greatest length of a part of a path. -/
def maxPart : Nat := 255

/-- The parts of a path. Slashes in a row and single dots add nothing. -/
def parts (path : Bytes) : List Bytes :=
  (path.split slash).filter fun p => !p.isEmpty && p != utf8 "."

/-- Parts with slashes between them. -/
def joined : List Bytes → Bytes
  | [] => []
  | [p] => p
  | p :: q :: rest => p ++ slash :: joined (q :: rest)

/-- The parts, read without looking at any tree: two dots cancel the part before them. The parts so
far are given with the last one first. -/
def reduce (rooted : Bool) : List Bytes → List Bytes → List Bytes
  | before, [] => before.reverse
  | before, p :: rest =>
    if p = utf8 ".." then
      match before with
      | [] => if rooted then reduce rooted [] rest else reduce rooted [p] rest
      | q :: more =>
        if q = utf8 ".." then reduce rooted (p :: before) rest else reduce rooted more rest
    else reduce rooted (p :: before) rest

/-- The shortest path that reads the same. -/
def clean (path : Bytes) : Bytes :=
  let rooted := path.head? == some slash
  match joined (reduce rooted [] (parts path)) with
  | [] => if rooted then [slash] else utf8 "."
  | short => if rooted then slash :: short else short

/-- The last part of a path as it is written, without slashes after it. -/
def base (path : Bytes) : Bytes :=
  if path.isEmpty then utf8 "."
  else
    match (path.reverse.dropWhile (· == slash)).takeWhile (· != slash) with
    | [] => [slash]
    | part => part.reverse

/-- One path below another. -/
def below (path more : Bytes) : Bytes :=
  clean (if path.isEmpty then more else path ++ slash :: more)

end Path

namespace Files

/-- The entries with their paths in parts. -/
def listed (f : Files) : List (List Bytes × Option Bytes) :=
  f.entries.map fun (path, contents) => (Path.parts path, contents)

/-- What stands at a place given in parts below the working directory. -/
def at? (f : Files) (place : List Bytes) : Option Found :=
  match f.listed.lookup place with
  | some (some contents) => some (.file contents)
  | some none => some .directory
  | none =>
    if place.isEmpty || f.listed.any (fun e => place.isPrefixOf e.1) then some .directory else none

/-- A directory reached while following a path: a place below the working directory, or one
outside it. -/
inductive Place where
  | inside (parts : List Bytes)
  | outside
deriving DecidableEq, Repr

/-- The directory above. -/
def Place.up : Place → Place
  | .outside => .outside
  | .inside [] => .outside
  | .inside parts => .inside parts.dropLast

/-- Follows the parts of a path from a directory. -/
def follow (f : Files) : Place → List Bytes → Except PathFault Found
  | _, [] => .ok .directory
  | place, p :: rest =>
    if p = utf8 ".." then follow f place.up rest
    else if Path.maxPart < p.length then .error .tooLong
    else
      match place with
      | .outside => .error .missing
      | .inside parts =>
        match f.at? (parts ++ [p]) with
        | none => .error .missing
        | some .directory => follow f (.inside (parts ++ [p])) rest
        | some (.file contents) =>
          if rest.isEmpty then .ok (.file contents) else .error .throughFile

/-- What a path leads to. A path that ends in a slash or a dot must lead to a directory. -/
def find (f : Files) (path : Bytes) : Except PathFault Found := do
  let start := if path.head? == some Path.slash then Place.outside else .inside []
  if path.contains 0 then throw .malformed
  if path.isEmpty then throw .missing
  if Path.lengthBound ≤ path.length then throw .tooLong
  let found ← follow f start (Path.parts path)
  let last := (path.split Path.slash).getLast?.getD []
  match found with
  | .file _ => if last.isEmpty || last = utf8 "." then throw .throughFile else return found
  | .directory => return found

/-- Why a file cannot be read. -/
inductive ReadFault where
  | unopened (path : Bytes) (why : PathFault)
  | isDirectory (path : Bytes)
deriving DecidableEq, Repr

/-- The fault in words. -/
def ReadFault.message : ReadFault → Bytes
  | .unopened path why => utf8 "open " ++ path ++ utf8 ": " ++ why.message
  | .isDirectory path => utf8 "read " ++ path ++ utf8 ": is a directory"

/-- The contents of the file at a path. -/
def read (f : Files) (path : Bytes) : Except ReadFault Bytes :=
  match f.find path with
  | .ok (.file contents) => .ok contents
  | .ok .directory => .error (.isDirectory path)
  | .error why => .error (.unopened path why)

/-- Whether a path leads to a file. -/
def isFile (f : Files) (path : Bytes) : Bool :=
  match f.find path with
  | .ok (.file _) => true
  | _ => false

/-- Whether a path leads to anything. -/
def holds (f : Files) (path : Bytes) : Bool := (f.find path).toOption.isSome

end Files
end Scriptlet
