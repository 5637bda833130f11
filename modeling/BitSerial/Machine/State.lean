import BitSerial.Bank.Error
import BitSerial.Geometry
import BitSerial.Instruction
import BitSerial.Registers

/-!
# Machine state

Registers, the program line, the data banks, the counter of the next
instruction and what the machine has counted and printed so far.  The type
fixes the geometry, so every line has its length and the counter always points
into main memory.

The counts of pulses and of instructions would wrap round, but no machine is
pulsed so often that either does.
-/

namespace BitSerial

/-- Whether a machine takes another step. -/
inductive RunState
  | running
  | halted
  deriving DecidableEq

/-- The name of a run state. -/
def RunState.name : RunState → String
  | .running => "Running"
  | .halted => "Halted"

/-- A machine of a given geometry. -/
structure Machine (geometry : Geometry) where
  registers : Registers
  /-- The program line, one channel that streams high bits first. -/
  main : Bank 1 geometry.mainWords
  /-- The data banks, one channel each, low bits first. -/
  data : Bank geometry.dataBanks geometry.bankWords
  /-- The address of the next instruction. -/
  counter : Fin geometry.mainWords
  /-- The address that relative jumps count from. -/
  base : Nat
  state : RunState
  /-- Pulses since reset, modulo 2^64. -/
  ticks : UInt64
  /-- Instructions since reset, modulo 2^64. -/
  cycles : UInt64
  /-- Printed numbers, oldest first. -/
  output : Array Int
  /-- The instruction executed last. -/
  last : Option Instruction
  deriving DecidableEq

/-- Why a step was not taken or not finished. -/
inductive StepError
  /-- The machine does not run. -/
  | notRunning (state : RunState)
  /-- The word at the counter is no instruction. -/
  | unknownOpcode (byte : BitVec 8) (counter : Nat)
  /-- The instruction addresses no data word. -/
  | dataAddress (bank word counter : Nat)
  /-- The instruction addresses no program word. -/
  | mainAddress (address counter : Nat)
  deriving DecidableEq

/-- The text of a failed step. -/
def StepError.message : StepError → String
  | .notRunning state => "CPU not running: " ++ state.name
  | .unknownOpcode byte counter =>
      "unknown opcode 0x" ++ String.ofList (Numeral.padded 2 (Numeral.hexadecimal byte.toNat)) ++
        s!" at word {counter}"
  | .dataAddress bank word counter =>
      s!"data address {bank}:{word} out of range at word {counter}"
  | .mainAddress address counter =>
      s!"main memory address {address} out of range at word {counter}"

/-- Why a program was not loaded. -/
inductive LoadError
  /-- The program has more words than main memory. -/
  | programTooLarge (size available : Nat)
  /-- The program was assembled for another place. -/
  | baseMismatch (assembled expected : Nat)
  deriving DecidableEq

/-- The text of a refused program. -/
def LoadError.message : LoadError → String
  | .programTooLarge size available =>
      s!"program size {size} exceeds main memory of {available} words"
  | .baseMismatch assembled expected =>
      s!"program assembled for base {assembled}, but this machine loads it at {expected}"

/-- Whatever can go wrong with a machine. -/
inductive MachineError
  | step (error : StepError)
  | load (error : LoadError)
  | memory (error : BankError)
  | geometry (error : GeometryError)
  /-- Memory has no room for the cells of the program line. -/
  | capacity
  deriving DecidableEq

/-- The text of a machine error. -/
def MachineError.message : MachineError → String
  | .step error => error.message
  | .load error => error.message
  | .memory error => "memory error: " ++ error.message
  | .geometry error => "configuration error: " ++ error.message
  | .capacity => "capacity overflow"

namespace Machine

variable {geometry : Geometry}

/-- A machine with nothing loaded. -/
def fresh (valid : geometry.Valid) : Machine geometry where
  registers := .blank
  main := .blank "main" .highFirst valid.mainWords_pos
  data := .blank "data" .lowFirst valid.bankWords_pos
  counter := ⟨0, valid.mainWords_pos⟩
  base := 0
  state := .running
  ticks := 0
  cycles := 0
  output := #[]
  last := none

/-- A machine of a geometry, if the geometry can be built and memory has room
for it.  Data memory is never too large. -/
def build? (geometry : Geometry) : Except MachineError (Machine geometry) :=
  match geometry.validate with
  | .error error => .error (.geometry error)
  | .ok ⟨valid⟩ =>
      if geometry.mainWords * 40 < cellLimit then .ok (fresh valid) else .error .capacity

/-- An address counted round the program line. -/
def around (machine : Machine geometry) (address : Nat) : Fin geometry.mainWords :=
  ⟨address % geometry.mainWords, Nat.mod_lt _ machine.counter.pos⟩

/-- Clear registers, memory and counts. -/
def reset (machine : Machine geometry) : Machine geometry where
  registers := machine.registers.reset
  main := machine.main.reset
  data := machine.data.reset
  counter := machine.around 0
  base := 0
  state := .running
  ticks := 0
  cycles := 0
  output := #[]
  last := none

/-- Whether the machine takes another step. -/
def isRunning (machine : Machine geometry) : Bool :=
  machine.state = .running

/-- The word at the head of the program line. -/
def clock (machine : Machine geometry) : Nat :=
  machine.main.clock Bank.sole

/-- A program word, read off the tape without a pulse. -/
def programWord? (machine : Machine geometry) (address : Nat) : Except MachineError Word :=
  match machine.main.place? 0 address with
  | .ok (channel, word) => .ok (machine.main.peekWord channel word)
  | .error error => .error (.memory error)

/-- Hand over what was printed. -/
def takeOutput (machine : Machine geometry) : List Int × Machine geometry :=
  (machine.output.toList, { machine with output := #[] })

/-- The machine for inspection. -/
def inspect (machine : Machine geometry) : String :=
  "Cpu \x7b state: " ++ machine.state.name ++ ", pc: " ++ toString machine.counter.val ++
    ", base: " ++ toString machine.base ++ ", cycles: " ++ toString machine.cycles.toNat ++
    ", ticks: " ++ toString machine.ticks.toNat ++ ", regs: " ++ machine.registers.inspect ++
    " \x7d"

end Machine

end BitSerial
