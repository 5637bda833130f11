import BitSerial.Instruction

/-!
# Opcode bytes

Whether a word is an instruction, and of which operation, shows in its opcode byte
alone.
-/

namespace BitSerial

/-- A byte is read as no operation exactly if none has it. -/
theorem Opcode.ofByte?_eq_none_iff {byte : BitVec 8} :
    ofByte? byte = none ↔ ∀ opcode : Opcode, opcode.byte ≠ byte := by
  rw [Option.eq_none_iff_forall_ne_some]
  exact forall_congr' fun opcode => not_congr ofByte?_eq_some_iff

namespace Instruction

theorem decode_eq_error_iff {word : Word} {unknown : UnknownOpcode} :
    decode word = .error unknown ↔
      unknown.byte = Word.opcode word ∧ ∀ opcode : Opcode, opcode.byte ≠ Word.opcode word := by
  rw [decode, ← Opcode.ofByte?_eq_none_iff]
  cases unknown
  cases Opcode.ofByte? (Word.opcode word) with
  | none => simp [eq_comm]
  | some opcode => simp

theorem decode_eq_ok_iff {word : Word} {instruction : Instruction} :
    decode word = .ok instruction ↔
      instruction.opcode.byte = Word.opcode word ∧
        ofOpcode instruction.opcode (Word.operand word) = instruction := by
  constructor
  · intro decoded
    rw [decode] at decoded
    split at decoded
    · rename_i opcode found
      cases decoded
      rw [opcode_ofOpcode]
      exact ⟨Opcode.ofByte?_eq_some_iff.mp found, rfl⟩
    · cases decoded
  · rintro ⟨byte, same⟩
    rw [decode, Opcode.ofByte?_eq_some_iff.mpr byte]
    exact congrArg Except.ok same

/-- The word that the byte of an operation and an operand make is read as that
operation. -/
theorem decode_ofParts (opcode : Opcode) (operand : Operand) :
    decode (Word.ofParts opcode.byte operand) = .ok (ofOpcode opcode operand) := by
  have found : Opcode.ofByte? opcode.byte = some opcode := Opcode.ofByte?_eq_some_iff.mpr rfl
  rw [decode, Word.opcode_ofParts, Word.operand_ofParts, found]

end Instruction

end BitSerial
