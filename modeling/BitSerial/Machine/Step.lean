import BitSerial.Machine.State
import BitSerial.Transfer

/-!
# Steps

A step waits for the word at the counter, fetches it, decodes it and executes
it.  Ticks of the fetch count even if the step then fails; a failed step halts
the machine and moves no counter.
-/

namespace BitSerial.Machine

variable {geometry : Geometry}

/-- What executing an instruction asks for: the ticks it took, and where to go
on if that is not the next word. -/
structure Flow (geometry : Geometry) where
  ticks : Nat
  jump : Option (Fin geometry.mainWords) := none

/-- The outcome of executing an instruction, with the machine it leaves. -/
abbrev Executed (geometry : Geometry) : Type :=
  Except StepError (Flow geometry) × Machine geometry

/-- Go on with the next word. -/
def proceed (ticks : Nat) (machine : Machine geometry) : Executed geometry :=
  (.ok { ticks }, machine)

/-- Work on the registers and go on. -/
def onRegisters (operation : Registers → Timed Registers) (machine : Machine geometry) :
    Executed geometry :=
  let done := operation machine.registers
  proceed done.ticks { machine with registers := done.result }

/-- Work on one register's line and go on. -/
def onRegister (name : RegisterName) (operation : DelayLine 40 → Timed (DelayLine 40))
    (machine : Machine geometry) : Executed geometry :=
  let done := operation (machine.registers.get name)
  proceed done.ticks { machine with registers := machine.registers.set name done.result }

/-- Exchange a word between a register and a data bank, and go on. -/
def onData (name : RegisterName)
    (transfer : DelayLine 40 → Bank geometry.dataBanks geometry.bankWords →
      Timed (DelayLine 40 × Bank geometry.dataBanks geometry.bankWords))
    (machine : Machine geometry) : Executed geometry :=
  let done := transfer (machine.registers.get name) machine.data
  proceed done.ticks { machine with
    registers := machine.registers.set name done.result.1
    data := done.result.2 }

/-- Exchange a word between the accumulator and the program line, and go on. -/
def onMain
    (transfer : DelayLine 40 → Bank 1 geometry.mainWords →
      Timed (DelayLine 40 × Bank 1 geometry.mainWords))
    (machine : Machine geometry) : Executed geometry :=
  let done := transfer machine.registers.a machine.main
  proceed done.ticks { machine with
    registers := machine.registers.set .a done.result.1
    main := done.result.2 }

/-- The data word of an address, if this machine has it. -/
def dataPlace? (address : DataAddress) (machine : Machine geometry) :
    Except StepError (Fin geometry.dataBanks × Fin geometry.bankWords) :=
  let bank := address.bank.toNat
  let word := address.word.toNat
  if inside : bank < geometry.dataBanks ∧ word < geometry.bankWords then
    .ok (⟨bank, inside.1⟩, ⟨word, inside.2⟩)
  else
    .error (.dataAddress bank word machine.counter)

/-- The program word of an address, if this machine has it. -/
def mainPlace? (address : Nat) (machine : Machine geometry) :
    Except StepError (Fin geometry.mainWords) :=
  if inside : address < geometry.mainWords then .ok ⟨address, inside⟩
  else .error (.mainAddress address machine.counter)

/-- Go on at an address, if this machine has it. -/
def jumpTo (address ticks : Nat) (machine : Machine geometry) : Executed geometry :=
  match machine.mainPlace? address with
  | .ok target => (.ok { ticks, jump := some target }, machine)
  | .error error => (.error error, machine)

/-- Let the accumulator pass and go on at an address if what it shows says so,
else with the next word. -/
def jumpIf (condition : Arithmetic.Scan → Bool) (address : Nat) (machine : Machine geometry) :
    Executed geometry :=
  let done := Arithmetic.scan machine.registers
  let scanned := { machine with registers := done.result.2 }
  if condition done.result.1 then scanned.jumpTo address done.ticks
  else proceed done.ticks scanned

/-- Let the accumulator pass and print it. -/
def print (machine : Machine geometry) : Executed geometry :=
  let done := Arithmetic.scan machine.registers
  proceed done.ticks { machine with
    registers := done.result.2
    output := machine.output.push done.result.1.value }

/-- Execute an operation without an operand. -/
def executePlain (op : PlainOp) (machine : Machine geometry) : Executed geometry :=
  match op with
  | .nop => proceed 0 machine
  | .add => machine.onRegisters Arithmetic.add
  | .neg => machine.onRegisters Arithmetic.negate
  | .shl => machine.onRegisters Arithmetic.shiftLeft
  | .shr => machine.onRegisters Arithmetic.shiftRight
  | .and => machine.onRegisters (Arithmetic.logic and)
  | .orr => machine.onRegisters (Arithmetic.logic or)
  | .xor => machine.onRegisters (Arithmetic.logic xor)
  | .mul => machine.onRegisters Arithmetic.multiply
  | .pra => machine.print
  | .hlt => proceed 0 { machine with state := .halted }

/-- Execute an operation with a thirty-two bit operand. -/
def executeWide (op : WideOp) (operand : Operand) (machine : Machine geometry) :
    Executed geometry :=
  let number := operand.toNat
  match op with
  | .lai => machine.onRegister .a (Arithmetic.loadImmediate operand .lowFirst)
  | .lbi => machine.onRegister .b (Arithmetic.loadImmediate operand .lowFirst)
  | .lea => machine.onRegister .a (Arithmetic.loadImmediate operand .highFirst)
  | .leb => machine.onRegister .b (Arithmetic.loadImmediate operand .highFirst)
  | .rnd => machine.onRegisters (Arithmetic.round number)
  | .mla => machine.onRegisters (Arithmetic.multiplyAdd number)
  | .ldp =>
      match machine.mainPlace? number with
      | .ok word => machine.onMain (Transfer.load Bank.sole word)
      | .error error => (.error error, machine)
  | .stp =>
      match machine.mainPlace? number with
      | .ok word => machine.onMain (Transfer.storeProgram Bank.sole word)
      | .error error => (.error error, machine)
  | .jmp => machine.jumpTo (machine.base + number) 0
  | .jmpa => machine.jumpTo number 0
  | .jza => machine.jumpIf (·.zero) (machine.base + number)
  | .jna => machine.jumpIf (·.negative) (machine.base + number)

/-- Add the bits that B shares with a data word to the accumulator. -/
def collate (bank : Fin geometry.dataBanks) (word : Fin geometry.bankWords)
    (machine : Machine geometry) : Executed geometry :=
  let done := Transfer.collate bank word machine.registers machine.data
  proceed done.ticks { machine with registers := done.result.1, data := done.result.2 }

/-- Execute an operation on a data word. -/
def executeData (op : DataOp) (address : DataAddress) (machine : Machine geometry) :
    Executed geometry :=
  match machine.dataPlace? address with
  | .error error => (.error error, machine)
  | .ok (bank, word) =>
      match op with
      | .sto => machine.onData .a (Transfer.store bank word)
      | .stb => machine.onData .b (Transfer.store bank word)
      | .stc => machine.onData .a (Transfer.storeClearing bank word)
      | .lda => machine.onData .a (Transfer.load bank word)
      | .ldb => machine.onData .b (Transfer.load bank word)
      | .col => machine.collate bank word

/-- Execute an instruction. -/
def execute (instruction : Instruction) (machine : Machine geometry) : Executed geometry :=
  match instruction with
  | .plain op => machine.executePlain op
  | .wide op operand => machine.executeWide op operand
  | .data op address => machine.executeData op address

/-- Wait for the word at the counter and let it pass. -/
def fetch (machine : Machine geometry) : Word × Machine geometry :=
  let wait := machine.main.waitFor Bank.sole machine.counter
  let (word, main) := machine.main.readWord Bank.sole machine.counter
  (word, { machine with main, ticks := machine.ticks + UInt64.ofNat (wait + 40) })

/-- The address behind the counter, round the line. -/
def successor (machine : Machine geometry) : Fin geometry.mainWords :=
  machine.around (machine.counter + 1)

/-- Account for an executed instruction. -/
def complete (instruction : Instruction) (flow : Flow geometry) (machine : Machine geometry) :
    Machine geometry :=
  { machine with
    ticks := machine.ticks + UInt64.ofNat flow.ticks
    counter := flow.jump.getD machine.successor
    cycles := machine.cycles + 1
    last := some instruction }

/-- Fetch, decode and execute. -/
def cycle (machine : Machine geometry) : Except StepError Instruction × Machine geometry :=
  let (word, fetched) := machine.fetch
  match Instruction.decode word with
  | .error error => (.error (.unknownOpcode error.byte machine.counter), fetched)
  | .ok instruction =>
      match fetched.execute instruction with
      | (.error error, executed) => (.error error, executed)
      | (.ok flow, executed) => (.ok instruction, executed.complete instruction flow)

/-- Take one step, if the machine runs.  An instruction that cannot be executed
halts it. -/
def step (machine : Machine geometry) : Except StepError Instruction × Machine geometry :=
  match machine.state with
  | .halted => (.error (.notRunning .halted), machine)
  | .running =>
      match machine.cycle with
      | (.ok instruction, after) => (.ok instruction, after)
      | (.error error, after) => (.error error, { after with state := .halted })

end BitSerial.Machine
