import BitSerial.CommandLine.Path
import BitSerial.FileFault

/-!
# Disks

Files by their places, and a working directory in which paths start.  A
directory is whatever leads to a file or to the working directory.  Paths are
followed name by name, the way the system does.
-/

namespace BitSerial

/-- Where something stands: the names that lead to it from the root. -/
abbrev Place := List String

/-- What a file holds. -/
inductive FileContent
  | text (text : String)
  /-- Bytes that spell no text. -/
  | binary
  deriving DecidableEq

/-- Files and a working directory. -/
structure Disk where
  home : Place
  files : List (Place × FileContent)
  deriving DecidableEq

namespace Disk

/-- What stands at a place. -/
inductive Entry
  | directory
  | file (content : FileContent)
  deriving DecidableEq

/-- What stands at a place, if anything does. -/
def entry? (disk : Disk) (place : Place) : Option Entry :=
  match disk.files.lookup place with
  | some content => some (.file content)
  | none =>
      if place.isPrefixOf disk.home || disk.files.any fun file => place.isPrefixOf file.1 then
        some .directory
      else
        none

/-- Where a path ends. -/
structure Target where
  place : Place
  /-- Whether the path asks for a directory. -/
  asDirectory : Bool
  deriving DecidableEq

/-- What stands at a place.  A name may have 255 bytes. -/
def find (disk : Disk) (place : Place) : Except FileFault (Option Entry) :=
  if place.getLast?.any (255 < ·.utf8ByteSize) then .error .nameTooLong
  else .ok (disk.entry? place)

/-- Follow names from a directory on.  All but the last must lead to
directories. -/
def follow (disk : Disk) : Place → List String → Except FileFault Target
  | here, [] => .ok ⟨here, true⟩
  | here, name :: rest =>
      if name = "" ∨ name = "." then
        follow disk here rest
      else if name = ".." then
        follow disk here.dropLast rest
      else if rest.all (· = "") then
        .ok ⟨here ++ [name], !rest.isEmpty⟩
      else
        match disk.find (here ++ [name]) with
        | .ok (some .directory) => follow disk (here ++ [name]) rest
        | .ok (some (.file _)) => .error .notDirectory
        | .ok none => .error .missing
        | .error fault => .error fault

/-- Follow a path. -/
def target (disk : Disk) (path : String) : Except FileFault Target :=
  let names := (Path.segments path.toList).map String.ofList
  if path.isEmpty then .error .missing
  else if 4095 < path.utf8ByteSize then .error .nameTooLong
  else if path.toList.head? = some '/' then disk.follow [] names
  else disk.follow disk.home names

/-- The text of a file. -/
def read (disk : Disk) (path : String) : Except FileFault String := do
  let target ← disk.target path
  match ← disk.find target.place with
  | none => .error .missing
  | some .directory => .error .directory
  | some (.file content) =>
      if target.asDirectory then
        .error .notDirectory
      else
        match content with
        | .text text => .ok text
        | .binary => .error .undecodable

/-- Put a text at a place. -/
def put (disk : Disk) (place : Place) (text : String) : Disk :=
  { disk with files := (place, .text text) :: disk.files.filter (·.1 ≠ place) }

/-- Write a file, over an older one or anew.  A path that asks for a directory
is refused before anything is looked for at its end. -/
def write (disk : Disk) (path text : String) : Except FileFault Disk := do
  let target ← disk.target path
  if target.asDirectory then .error .directory
  else if (← disk.find target.place) = some .directory then .error .directory
  else .ok (disk.put target.place text)

end Disk

end BitSerial
