import BitSerial.CommandLine.Disk

/-!
# Dialogues

What a command asks of its surroundings, in order: lines to print, lines to
complain with, files to read and to write, and at last a result or an exit
code.  A dialogue does nothing by itself.  Here it is performed on a disk; the
program performs it on the real one.
-/

namespace BitSerial

/-- A course of requests that ends in a result or an exit code. -/
inductive Dialogue (α : Type) where
  | result (value : α)
  /-- End at once. -/
  | exit (code : UInt32)
  /-- Print a line. -/
  | say (line : String) (next : Unit → Dialogue α)
  /-- Print a line where errors go. -/
  | complain (line : String) (next : Unit → Dialogue α)
  /-- Read a file. -/
  | read (path : String) (next : Except FileFault String → Dialogue α)
  /-- Write a file. -/
  | write (path text : String) (next : Except FileFault Unit → Dialogue α)

namespace Dialogue

variable {α β : Type}

/-- Go on with the result of a dialogue. -/
def bind (dialogue : Dialogue α) (next : α → Dialogue β) : Dialogue β :=
  match dialogue with
  | .result value => next value
  | .exit code => .exit code
  | .say line rest => .say line fun answer => (rest answer).bind next
  | .complain line rest => .complain line fun answer => (rest answer).bind next
  | .read path rest => .read path fun answer => (rest answer).bind next
  | .write path text rest => .write path text fun answer => (rest answer).bind next

instance : Monad Dialogue where
  pure := .result
  bind := bind

/-- Print a line. -/
def printLine (line : String) : Dialogue Unit :=
  .say line .result

/-- Print lines. -/
def printLines (lines : List String) : Dialogue Unit :=
  lines.foldr (fun line rest => .say line fun _ => rest) (.result ())

/-- Print a line where errors go. -/
def warn (line : String) : Dialogue Unit :=
  .complain line .result

/-- Read a file. -/
def readFile (path : String) : Dialogue (Except FileFault String) :=
  .read path .result

/-- Write a file. -/
def writeFile (path text : String) : Dialogue (Except FileFault Unit) :=
  .write path text .result

/-- Complain and end with code 101: nothing was wrong with what was asked for,
but it cannot be done. -/
def breakOff (reason : String) : Dialogue α :=
  .complain reason fun _ => .exit 101

/-- Complain and end with code 1. -/
def fail (reason : String) : Dialogue α :=
  .complain ("❌ " ++ reason) fun _ => .exit 1

end Dialogue

/-- A disk, and what was printed beside it. -/
structure World where
  disk : Disk
  /-- Lines printed, oldest first. -/
  output : Array String
  /-- Lines complained with, oldest first. -/
  complaints : Array String

namespace World

/-- A disk on which nothing was done yet. -/
def ofDisk (disk : Disk) : World :=
  { disk, output := #[], complaints := #[] }

/-- Perform a dialogue to its result or exit code. -/
def perform {α : Type} (world : World) : Dialogue α → Except UInt32 α × World
  | .result value => (.ok value, world)
  | .exit code => (.error code, world)
  | .say line next => perform { world with output := world.output.push line } (next ())
  | .complain line next =>
      perform { world with complaints := world.complaints.push line } (next ())
  | .read path next => perform world (next (world.disk.read path))
  | .write path text next =>
      match world.disk.write path text with
      | .ok disk => perform { world with disk } (next (.ok ()))
      | .error fault => perform world (next (.error fault))

/-- The exit code of a dialogue that was performed, zero if it came to a
result. -/
def exitCode {α : Type} : Except UInt32 α → UInt32
  | .ok _ => 0
  | .error code => code

/-- A dialogue that goes on is performed in two parts. -/
theorem perform_bind {α β : Type} (world : World) (dialogue : Dialogue α)
    (next : α → Dialogue β) :
    world.perform (dialogue.bind next) =
      match world.perform dialogue with
      | (.ok value, after) => after.perform (next value)
      | (.error code, after) => (.error code, after) := by
  induction dialogue generalizing world with
  | result value => rfl
  | exit code => rfl
  | say line rest ih => exact ih () _
  | complain line rest ih => exact ih () _
  | read path rest ih => exact ih _ world
  | write path text rest ih =>
      simp only [Dialogue.bind, perform]
      cases world.disk.write path text with
      | ok disk => exact ih _ _
      | error fault => exact ih _ world

end World

end BitSerial
