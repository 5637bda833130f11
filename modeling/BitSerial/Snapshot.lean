import BitSerial.Json.Value
import BitSerial.Machine.State

/-!
# Snapshots

The state of a machine and of its parts as structured values.  Instructions
are also read back: a plain one is its name, or its name with `null`; the
others are their name with an operand.
-/

namespace BitSerial

/-- A bit by name. -/
def Bit.toJson (bit : Bit) : Json :=
  .string (Bit.name bit)

namespace DelayLine

variable {length : Nat}

/-- A line: its cells from the head on, the pending bit and the switch. -/
def toJson (line : DelayLine length) : Json :=
  .object [
    ("cells", .array (line.bits.map Bit.toJson)),
    ("pending", .ofOption Bit.toJson line.pending),
    ("refresh", .bool line.refresh)]

end DelayLine

namespace Bank

variable {channels words : Nat}

/-- A bank: its lines and where they stand. -/
def toJson (bank : Bank channels words) : Json :=
  .object [
    ("name", .string bank.name),
    ("channels", .array (bank.lines.toList.map (·.toJson))),
    ("positions",
      .array ((List.finRange channels).map fun channel => .nat (bank.position channel))),
    ("words_per_channel", .nat words),
    ("order", .string bank.order.name)]

end Bank

/-- The registers' lines. -/
def Registers.toJson (registers : Registers) : Json :=
  .object [
    ("a", registers.a.toJson),
    ("b", registers.b.toJson),
    ("s", registers.s.toJson)]

namespace DataAddress

/-- An address by its parts. -/
def toJson (address : DataAddress) : Json :=
  .object [("bank", .nat address.bank.toNat), ("word", .nat address.word.toNat)]

/-- The address in a structured value.  Parts may be any byte. -/
def ofJson? (value : Json) : Option DataAddress :=
  match Json.allFields? ["bank", "word"] value with
  | some [bank, word] => do
      let bank ← bank.natBelow? 256
      let word ← word.natBelow? 256
      return ⟨BitVec.ofNat 8 bank, BitVec.ofNat 8 word⟩
  | _ => none

end DataAddress

namespace Instruction

/-- An instruction by name, with its operand if it has one. -/
def toJson (instruction : Instruction) : Json :=
  let name := instruction.opcode.name
  match instruction with
  | .plain _ => .string name
  | .wide _ operand => .object [(name, .nat operand.toNat)]
  | .data _ address => .object [(name, address.toJson)]

/-- The instruction of an operation with the operand in a structured value. -/
def withOperand? (opcode : Opcode) (operand : Json) : Option Instruction :=
  match opcode, operand with
  | .plain op, .null => some (.plain op)
  | .plain _, _ => none
  | .wide op, operand =>
      (operand.natBelow? operandLimit).map fun operand => .wide op (BitVec.ofNat 32 operand)
  | .data op, operand => (DataAddress.ofJson? operand).map (.data op)

/-- The instruction in a structured value. -/
def ofJson? : Json → Option Instruction
  | .string name => (Opcode.ofName? name).bind fun opcode => withOperand? opcode .null
  | .object [(name, operand)] =>
      (Opcode.ofName? name).bind fun opcode => withOperand? opcode operand
  | _ => none

end Instruction

namespace Machine

variable {geometry : Geometry}

/-- The whole machine. -/
def toJson (machine : Machine geometry) : Json :=
  .object [
    ("config", geometry.toJson),
    ("regs", machine.registers.toJson),
    ("main", machine.main.toJson),
    ("data", machine.data.toJson),
    ("pc", .nat machine.counter),
    ("base", .nat machine.base),
    ("state", .string machine.state.name),
    ("ticks", .nat machine.ticks.toNat),
    ("cycles", .nat machine.cycles.toNat),
    ("output", .array (machine.output.toList.map .integer)),
    ("last_instr", .ofOption Instruction.toJson machine.last)]

end Machine

end BitSerial
