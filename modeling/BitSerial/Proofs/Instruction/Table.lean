import BitSerial.Limits
import BitSerial.Proofs.Instruction.DataAddresses
import BitSerial.Proofs.Instruction.Opcodes

/-!
# The table of instructions

The instruction set as it is written down: a number for each operation, which stands in front
of an operand of thirty-two bits.  The numbers are part of every stored program, so they are
given here once more, apart from those the machine works with.  That it reads every word as
the table does is proved, and would not hold if one of its bytes were another.
-/

namespace BitSerial.InstructionTable

/-- The operation that a number stands for. -/
def operation? : Nat → Option Opcode
  | 0x00 => some (.plain .nop)
  | 0x01 => some (.wide .lai)
  | 0x02 => some (.wide .lbi)
  | 0x03 => some (.wide .lea)
  | 0x04 => some (.wide .leb)
  | 0x05 => some (.plain .add)
  | 0x06 => some (.plain .neg)
  | 0x07 => some (.plain .shl)
  | 0x08 => some (.plain .shr)
  | 0x09 => some (.plain .and)
  | 0x0A => some (.plain .orr)
  | 0x0B => some (.plain .xor)
  | 0x0C => some (.plain .mul)
  | 0x0D => some (.wide .rnd)
  | 0x0E => some (.wide .mla)
  | 0x10 => some (.data .sto)
  | 0x11 => some (.data .stb)
  | 0x12 => some (.data .stc)
  | 0x13 => some (.data .lda)
  | 0x14 => some (.data .ldb)
  | 0x15 => some (.data .col)
  | 0x18 => some (.wide .ldp)
  | 0x19 => some (.wide .stp)
  | 0x20 => some (.wide .jmp)
  | 0x21 => some (.wide .jmpa)
  | 0x22 => some (.wide .jza)
  | 0x23 => some (.wide .jna)
  | 0x30 => some (.plain .pra)
  | 0xFF => some (.plain .hlt)
  | _ => none

/-- An operation with its operand.  The address of a data word has two hexadecimal digits, the
bank and the word in it. -/
def instruction (opcode : Opcode) (operand : Nat) : Instruction :=
  match opcode with
  | .plain op => .plain op
  | .wide op => .wide op (BitVec.ofNat 32 operand)
  | .data op => .data op ⟨BitVec.ofNat 8 (operand / 16 % 16), BitVec.ofNat 8 (operand % 16)⟩

/-- The instruction in a word, or the byte that stands for none. -/
def read (word : Word) : Except UnknownOpcode Instruction :=
  let number := word.toNat / operandLimit
  match operation? number with
  | some opcode => .ok (instruction opcode (word.toNat % operandLimit))
  | none => .error ⟨BitVec.ofNat 8 number⟩

/-! ## The machine's bytes -/

/-- The table has just the bytes of the machine. -/
theorem operation?_eq_some_iff {number : Nat} {opcode : Opcode} :
    operation? number = some opcode ↔ opcode.byte.toNat = number := by
  constructor
  · intro listed
    unfold operation? at listed
    split at listed <;> cases listed <;> rfl
  · rintro rfl
    rcases opcode with op | op | op <;> cases op <;> rfl

theorem operation?_toNat (byte : BitVec 8) : operation? byte.toNat = Opcode.ofByte? byte := by
  apply Option.ext
  intro opcode
  rw [operation?_eq_some_iff, Opcode.ofByte?_eq_some_iff, BitVec.toNat_inj]

theorem instruction_toNat (opcode : Opcode) (operand : Operand) :
    instruction opcode operand.toNat = Instruction.ofOpcode opcode operand := by
  cases opcode with
  | plain op => rfl
  | wide op =>
      rw [instruction, BitVec.ofNat_toNat, BitVec.setWidth_eq]
      rfl
  | data op =>
      refine congrArg (Instruction.data op) (DataAddress.ext_toNat ?_ ?_)
      · rw [DataAddress.toNat_bank_ofOperand]
        exact Nat.mod_eq_of_lt (by omega)
      · rw [DataAddress.toNat_word_ofOperand]
        exact Nat.mod_eq_of_lt (by omega)

theorem toNat_opcode (word : Word) :
    (Word.opcode word).toNat = word.toNat / operandLimit := by
  have small : word.toNat / operandLimit < 2 ^ 8 :=
    Nat.div_lt_of_lt_mul word.isLt
  rw [Word.opcode, BitVec.extractLsb'_toNat, Nat.shiftRight_eq_div_pow]
  exact Nat.mod_eq_of_lt small

theorem toNat_operand (word : Word) :
    (Word.operand word).toNat = word.toNat % operandLimit := by
  rw [Word.operand, BitVec.extractLsb'_toNat, Nat.shiftRight_zero]
  rfl

/-- The machine reads every word as the table does. -/
theorem read_eq_decode (word : Word) : read word = Instruction.decode word := by
  rw [read, Instruction.decode, ← toNat_opcode, ← toNat_operand, operation?_toNat]
  cases Opcode.ofByte? (Word.opcode word) with
  | some opcode =>
      show Except.ok (instruction opcode (Word.operand word).toNat) = _
      rw [instruction_toNat]
  | none =>
      show Except.error (UnknownOpcode.mk (BitVec.ofNat 8 (Word.opcode word).toNat)) = _
      rw [BitVec.ofNat_toNat, BitVec.setWidth_eq]

end BitSerial.InstructionTable
