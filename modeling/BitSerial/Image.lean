import BitSerial.FileFault
import BitSerial.Json.Printer
import BitSerial.Json.Reader
import BitSerial.Program

/-!
# Program images

An image is an assembled program with the size of the main memory it was
assembled for, written as an indented structured value.  Reading takes any
spelling of such a value and refuses the ones whose program would not load.
-/

namespace BitSerial

/-- A stored program. -/
structure Image where
  /-- The version of the notation. -/
  format : BitVec 32
  /-- Words in main memory. -/
  mainWords : Nat
  program : Program
  deriving DecidableEq

/-- Why an image was not taken. -/
inductive ImageError
  /-- The file could not be read or written. -/
  | inaccessible (fault : FileFault)
  /-- The text is no image. -/
  | malformed
  /-- The image is of another version. -/
  | unsupportedFormat (format : BitVec 32)
  /-- The program does not end where main memory ends. -/
  | inconsistent (base size mainWords : Nat)
  deriving DecidableEq

/-- The text of a refused image. -/
def ImageError.message : ImageError → String
  | .inaccessible fault => "I/O error: " ++ fault.message
  | .malformed => "invalid image: not a stored program"
  | .unsupportedFormat format => s!"unsupported image format {format.toNat}"
  | .inconsistent base size mainWords =>
      s!"image base address {base} does not fit {size} words at the tail of {mainWords}"

namespace Image

/-- The version that can be read. -/
def currentFormat : BitVec 32 :=
  1

/-- The image of a program for main memories of a size. -/
def ofProgram (program : Program) (mainWords : Nat) : Image :=
  { format := currentFormat, mainWords, program }

/-- The image as a structured value. -/
def toJson (image : Image) : Json :=
  .object [
    ("format", .nat image.format.toNat),
    ("main_words", .nat image.mainWords),
    ("program", image.program.toJson)]

/-- The image in a structured value, whatever its numbers. -/
def ofJson? (value : Json) : Option Image :=
  match Json.allFields? ["format", "main_words", "program"] value with
  | some [format, mainWords, program] => do
      let format ← format.natBelow? operandLimit
      let mainWords ← mainWords.count?
      let program ← Program.ofJson? program
      return { format := BitVec.ofNat 32 format, mainWords, program }
  | _ => none

/-- The image as text. -/
def print (image : Image) : String :=
  image.toJson.indented

/-- An image whose version is known and whose program fits its memory. -/
def check (image : Image) : Except ImageError Image :=
  let program := image.program
  if image.format ≠ currentFormat then
    .error (.unsupportedFormat image.format)
  else if image.mainWords < program.size ∨ program.base ≠ image.mainWords - program.size then
    .error (.inconsistent program.base program.size image.mainWords)
  else
    .ok image

/-- The image that a text spells. -/
def parse (text : String) : Except ImageError Image :=
  match (Json.read? text).bind ofJson? with
  | some image => image.check
  | none => .error .malformed

end Image

end BitSerial
