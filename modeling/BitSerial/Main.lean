import BitSerial.CommandLine.Commands

/-!
# The program

Dialogues performed on the real disk and terminal.
-/

namespace BitSerial

/-- The fault that a system error stands for. -/
def FileFault.ofError : IO.Error → FileFault
  | .noFileOrDirectory .. => .missing
  | .inappropriateType _ 20 _ => .notDirectory
  | .inappropriateType .. => .directory
  | .invalidArgument _ 36 _ => .nameTooLong
  | error => .other (toString error)

/-- Read a file as text. -/
def readText (path : String) : IO (Except FileFault String) := do
  match ← (IO.FS.readBinFile path).toBaseIO with
  | .error error => return .error (.ofError error)
  | .ok bytes =>
      match String.fromUTF8? bytes with
      | some text => return .ok text
      | none => return .error .undecodable

/-- Write a text over a file. -/
def writeText (path text : String) : IO (Except FileFault Unit) := do
  match ← (IO.FS.writeFile path text).toBaseIO with
  | .error error => return .error (.ofError error)
  | .ok _ => return .ok ()

/-- Perform a dialogue to its exit code. -/
def Dialogue.perform {α : Type} : Dialogue α → IO UInt32
  | .result _ => return 0
  | .exit code => return code
  | .say line next => do
      IO.println line
      (next ()).perform
  | .complain line next => do
      IO.eprintln line
      (next ()).perform
  | .read path next => do
      (next (← readText path)).perform
  | .write path text next => do
      (next (← writeText path text)).perform

end BitSerial

/-- Do what the arguments ask for. -/
def main (arguments : List String) : IO UInt32 :=
  (BitSerial.CommandLine.start arguments).perform
