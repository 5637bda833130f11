import BitSerial.FileFault
import BitSerial.Geometry
import BitSerial.Json.Reader

/-!
# Geometry files

A geometry written as a structured value.  A file is taken only if the machine
it describes can be built.
-/

namespace BitSerial

/-- Why a geometry file was not taken. -/
inductive GeometryFileError
  /-- The file could not be read. -/
  | inaccessible (fault : FileFault)
  /-- The text spells no geometry. -/
  | malformed
  /-- There is no such machine. -/
  | invalid (error : GeometryError)
  deriving DecidableEq

/-- The text of a refused geometry file. -/
def GeometryFileError.message : GeometryFileError → String
  | .inaccessible fault => "I/O error: " ++ fault.message
  | .malformed => "invalid configuration: not a geometry"
  | .invalid error => error.message

namespace Geometry

/-- The geometry that a text spells. -/
def parse (text : String) : Except GeometryFileError Geometry :=
  match (Json.read? text).bind ofJson? with
  | none => .error .malformed
  | some geometry =>
      match geometry.validate with
      | .ok _ => .ok geometry
      | .error error => .error (.invalid error)

end Geometry

end BitSerial
