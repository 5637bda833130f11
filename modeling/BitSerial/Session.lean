import BitSerial.Assembly
import BitSerial.Json.Value
import BitSerial.Listing
import BitSerial.Machine.Load
import BitSerial.Machine.Run

/-!
# Sessions

A machine that remembers the program it was given, so that a reset brings back
the state right after loading.
-/

namespace BitSerial

/-- A machine and the program it was given last. -/
structure Session (geometry : Geometry) where
  machine : Machine geometry
  program : Option Program

/-- Why a session took no source. -/
inductive SessionError
  | assembly (error : AssemblyError)
  | load (error : LoadError)
  deriving DecidableEq

/-- The text of a refused source. -/
def SessionError.message : SessionError → String
  | .assembly error => error.message
  | .load error => error.message

namespace Session

variable {geometry : Geometry}

/-- Start with nothing loaded on a fresh machine. -/
def start (geometry : Geometry) : Except MachineError (Session geometry) :=
  (Machine.build? geometry).map fun machine => { machine, program := none }

/-- Assemble a source, load it into a cleared machine and say how many words it
has.  A source that cannot be assembled changes nothing. -/
def loadSource (source : String) (session : Session geometry) :
    Except SessionError Nat × Session geometry :=
  match Program.assemble geometry source with
  | .error error => (.error (.assembly error), session)
  | .ok program =>
      let cleared := session.machine.reset
      match cleared.loadProgram program with
      | (.error error, machine) => (.error (.load error), { session with machine })
      | (.ok _, machine) => (.ok program.size, ⟨machine, some program⟩)

/-- Take one step and say which operation was executed. -/
def step (session : Session geometry) : Except StepError Opcode × Session geometry :=
  let (outcome, machine) := session.machine.step
  (outcome.map Instruction.opcode, { session with machine })

/-- Run for at most a number of instructions and say how many were executed
since the last reset. -/
def run (maximum : UInt32) (session : Session geometry) :
    Except RunError UInt64 × Session geometry :=
  let (outcome, machine) := session.machine.runLimited maximum.toUInt64
  (outcome.map fun _ => machine.cycles, { session with machine })

/-- Clear the machine and load the program again. -/
def reset (session : Session geometry) : Except LoadError Unit × Session geometry :=
  let cleared := session.machine.reset
  match session.program with
  | none => (.ok (), { session with machine := cleared })
  | some program =>
      let (outcome, machine) := cleared.loadProgram program
      (outcome, { session with machine })

/-- The cells of the register that a letter of either case names. -/
def registerBits? (name : String) (session : Session geometry) : Option (List Bit) :=
  (RegisterName.ofLetter? name).map fun register =>
    (session.machine.registers.get register).bits

/-- A program word as a statement. -/
def wordText? (address : Nat) (session : Session geometry) : Except MachineError (List Char) :=
  (session.machine.programWord? address).map Word.text

/-- Registers and counts as a structured value. -/
def summary (session : Session geometry) : Json :=
  let machine := session.machine
  let value (name : RegisterName) : Json :=
    .integer (Word.signed (machine.registers.peek name))
  .object [
    ("a", value .a),
    ("b", value .b),
    ("s", value .s),
    ("pc", .nat machine.counter),
    ("base", .nat machine.base),
    ("ticks", .nat machine.ticks.toNat),
    ("cycles", .nat machine.cycles.toNat),
    ("state", .string machine.state.name)]

end Session

end BitSerial
