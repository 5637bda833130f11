/-!
# File faults

Why a file could not be read or written, in the words of the system.
-/

namespace BitSerial

/-- Why a file could not be read or written. -/
inductive FileFault
  /-- There is no such file. -/
  | missing
  /-- A directory stands where a file should. -/
  | directory
  /-- A file stands where a directory should. -/
  | notDirectory
  /-- A name is too long for the file system. -/
  | nameTooLong
  /-- The bytes spell no text. -/
  | undecodable
  /-- Anything else the system says. -/
  | other (text : String)
  deriving DecidableEq

/-- The text of a file fault. -/
def FileFault.message : FileFault → String
  | .missing => "No such file or directory (os error 2)"
  | .directory => "Is a directory (os error 21)"
  | .notDirectory => "Not a directory (os error 20)"
  | .nameTooLong => "File name too long (os error 36)"
  | .undecodable => "stream did not contain valid UTF-8"
  | .other text => text

end BitSerial
