import BitSerial.Proofs.Instruction.DataAddresses
import BitSerial.Proofs.Instruction.Opcodes

/-!
# The instruction format

A word is an instruction if an operation has its opcode byte, whatever its operand is.
Each operation ignores some bits of the operand, and these are all that a word can lose
on its way through the instruction in it.  In the other direction an instruction loses
nothing, unless its data address is too large for an operand.
-/

namespace BitSerial

/-- The bits of an operand that an operation ignores: plain ones have no use for it, and
a data address has eight bits. -/
def Opcode.ignored : Opcode → Operand
  | .plain _ => 0xFFFFFFFF#32
  | .wide _ => 0#32
  | .data _ => 0xFFFFFF00#32

/-- Clearing some bits changes nothing exactly if none of them was set. -/
theorem Operand.and_not_eq_self_iff {operand cleared : Operand} :
    operand &&& ~~~cleared = operand ↔ operand &&& cleared = 0#32 := by
  rw [BitVec.eq_of_getLsbD_eq_iff, BitVec.eq_of_getLsbD_eq_iff]
  refine forall₂_congr fun bit inside => ?_
  rw [BitVec.getLsbD_and, BitVec.getLsbD_and, BitVec.getLsbD_not, BitVec.getLsbD_zero]
  cases operand.getLsbD bit <;> cases cleared.getLsbD bit <;> simp [inside]

namespace Instruction

/-- An instruction whose data address, if it has one, is small enough for an operand. -/
def Narrow : Instruction → Prop
  | .plain _ | .wide _ _ => True
  | .data _ address => address.Narrow

theorem opcode_encode (instruction : Instruction) :
    Word.opcode instruction.encode = instruction.opcode.byte :=
  Word.opcode_ofParts _ _

theorem operand_encode (instruction : Instruction) :
    Word.operand instruction.encode = instruction.operand :=
  Word.operand_ofParts _ _

/-- The operand of an instruction in a word is the word's, less what the operation
ignores. -/
theorem operand_ofOpcode (opcode : Opcode) (operand : Operand) :
    (ofOpcode opcode operand).operand = operand &&& ~~~opcode.ignored := by
  cases opcode with
  | plain op =>
      show 0#32 = operand &&& ~~~0xFFFFFFFF#32
      have none : ~~~0xFFFFFFFF#32 = 0#32 := by decide
      rw [none, BitVec.and_zero]
  | wide op =>
      show operand = operand &&& ~~~0#32
      have all : ~~~0#32 = BitVec.allOnes 32 := by decide
      rw [all, BitVec.and_allOnes]
  | data op =>
      show (DataAddress.ofOperand operand).toOperand = operand &&& ~~~0xFFFFFF00#32
      have low : ~~~0xFFFFFF00#32 = 0xFF#32 := by decide
      rw [low, DataAddress.toOperand_ofOperand]

/-- What an operation ignores makes no difference. -/
theorem ofOpcode_eq_iff {opcode : Opcode} {left right : Operand} :
    ofOpcode opcode left = ofOpcode opcode right ↔
      left &&& ~~~opcode.ignored = right &&& ~~~opcode.ignored := by
  rw [← operand_ofOpcode, ← operand_ofOpcode]
  constructor
  · exact congrArg operand
  · intro same
    cases opcode with
    | plain op => rfl
    | wide op => exact congrArg (wide op) same
    | data op =>
        have read (operand) := (DataAddress.narrow_ofOperand operand).ofOperand_toOperand
        have address := congrArg DataAddress.ofOperand same
        exact congrArg (data op) ((read left).symm.trans (address.trans (read right)))

theorem narrow_ofOpcode (opcode : Opcode) (operand : Operand) :
    (ofOpcode opcode operand).Narrow := by
  cases opcode with
  | plain op => trivial
  | wide op => trivial
  | data op => exact DataAddress.narrow_ofOperand operand

theorem Narrow.ofOpcode_operand {instruction : Instruction} (narrow : instruction.Narrow) :
    ofOpcode instruction.opcode instruction.operand = instruction := by
  cases instruction with
  | plain op => rfl
  | wide op operand => rfl
  | data op address => exact congrArg (data op) (DataAddress.Narrow.ofOperand_toOperand narrow)

/-- The word of any instruction is an instruction of the same operation. -/
theorem decode_encode (instruction : Instruction) :
    decode instruction.encode = .ok (ofOpcode instruction.opcode instruction.operand) :=
  decode_ofParts instruction.opcode instruction.operand

theorem Narrow.decode_encode {instruction : Instruction} (narrow : instruction.Narrow) :
    decode instruction.encode = .ok instruction := by
  rw [Instruction.decode_encode, narrow.ofOpcode_operand]

theorem narrow_of_decode {word : Word} {instruction : Instruction}
    (decoded : decode word = .ok instruction) : instruction.Narrow := by
  rw [← (decode_eq_ok_iff.mp decoded).2]
  exact narrow_ofOpcode _ _

theorem operand_encode_of_decode {word : Word} {instruction : Instruction}
    (decoded : decode word = .ok instruction) :
    Word.operand instruction.encode = Word.operand word &&& ~~~instruction.opcode.ignored := by
  rw [operand_encode, ← operand_ofOpcode, (decode_eq_ok_iff.mp decoded).2]

/-- A word comes back from its instruction if none of its bits were ignored. -/
theorem encode_eq_iff_of_decode {word : Word} {instruction : Instruction}
    (decoded : decode word = .ok instruction) :
    instruction.encode = word ↔ Word.operand word &&& instruction.opcode.ignored = 0#32 := by
  have byte := (decode_eq_ok_iff.mp decoded).1
  have kept := operand_encode_of_decode decoded
  rw [← Operand.and_not_eq_self_iff, ← kept]
  constructor
  · exact congrArg Word.operand
  · intro same
    rw [← Word.ofParts_opcode_operand word, ← same, ← byte, operand_encode]
    rfl

/-- Two words hold the same instruction if they differ only where it does not look. -/
theorem decode_eq_iff_of_decode {word other : Word} {instruction : Instruction}
    (decoded : decode word = .ok instruction) :
    decode other = .ok instruction ↔
      Word.opcode other = Word.opcode word ∧
        Word.operand other &&& ~~~instruction.opcode.ignored =
          Word.operand word &&& ~~~instruction.opcode.ignored := by
  obtain ⟨byte, same⟩ := decode_eq_ok_iff.mp decoded
  rw [decode_eq_ok_iff, ← ofOpcode_eq_iff, same, byte, eq_comm (a := Word.opcode word)]

/-- A word fails to be an instruction only by its opcode byte. -/
theorem exists_decode_error_iff {word : Word} :
    (∃ unknown, decode word = .error unknown) ↔
      Word.opcode word ∉ Opcode.all.map Opcode.byte := by
  have listed : Word.opcode word ∈ Opcode.all.map Opcode.byte ↔
      ∃ opcode : Opcode, opcode.byte = Word.opcode word := by
    rw [List.mem_map]
    exact exists_congr fun opcode => and_iff_right opcode.mem_all
  rw [listed, not_exists]
  constructor
  · rintro ⟨unknown, failed⟩
    exact (decode_eq_error_iff.mp failed).2
  · intro none
    exact ⟨⟨Word.opcode word⟩, decode_eq_error_iff.mpr ⟨rfl, none⟩⟩

/-- Reading instructions and writing them agree over the whole format.  An instruction
comes back from its word unless its data address is too large, and then another one
does.  A word is no instruction exactly if none of the twenty-nine operations has its
opcode byte.  The word of a word's instruction has the same opcode byte, and the same
operand without the bits that the operation ignores; so it is the same word if these
bits were clear, and words with the same instruction are those that differ in these bits
alone. -/
theorem decode_encode_agree :
    (∀ instruction : Instruction, instruction.Narrow →
      decode instruction.encode = .ok instruction) ∧
    (∀ instruction : Instruction, ¬instruction.Narrow →
      ∃ other, decode instruction.encode = .ok other ∧ other ≠ instruction) ∧
    Opcode.all.length = 29 ∧
    ∀ word : Word,
      ((∃ unknown, decode word = .error unknown) ↔
        Word.opcode word ∉ Opcode.all.map Opcode.byte) ∧
      ∀ instruction, decode word = .ok instruction →
        Word.opcode instruction.encode = Word.opcode word ∧
        Word.operand instruction.encode =
          Word.operand word &&& ~~~instruction.opcode.ignored ∧
        decode instruction.encode = .ok instruction ∧
        (instruction.encode = word ↔
          Word.operand word &&& instruction.opcode.ignored = 0#32) ∧
        ∀ other : Word, decode other = .ok instruction ↔
          Word.opcode other = Word.opcode word ∧
            Word.operand other &&& ~~~instruction.opcode.ignored =
              Word.operand word &&& ~~~instruction.opcode.ignored := by
  refine ⟨fun instruction => Narrow.decode_encode, ?_, rfl, ?_⟩
  · intro instruction wide
    refine ⟨_, decode_encode instruction, ?_⟩
    intro same
    apply wide
    rw [← same]
    exact narrow_ofOpcode _ _
  · intro word
    refine ⟨exists_decode_error_iff, ?_⟩
    intro instruction decoded
    refine ⟨?_, operand_encode_of_decode decoded, (narrow_of_decode decoded).decode_encode,
      encode_eq_iff_of_decode decoded, fun other => decode_eq_iff_of_decode decoded⟩
    rw [opcode_encode]
    exact (decode_eq_ok_iff.mp decoded).1

/-- A store to word two of bank one with a stray bit above its address: the word without
that bit is the same instruction, and is what the instruction is written as.  A store to
a bank sixteen is written as one to bank zero. -/
theorem decode_encode_agree_stray :
    decode 0x1000000112#40 = .ok (.data .sto ⟨1, 2⟩) ∧
      (Instruction.data .sto ⟨1, 2⟩).encode ≠ 0x1000000112#40 ∧
      decode 0x1000000012#40 = .ok (.data .sto ⟨1, 2⟩) ∧
      decode (Instruction.data .sto ⟨1, 2⟩).encode = .ok (.data .sto ⟨1, 2⟩) ∧
      ∃ other, decode (Instruction.data .sto ⟨16, 0⟩).encode = .ok other ∧
        other ≠ .data .sto ⟨16, 0⟩ := by
  obtain ⟨back, apart, -, words⟩ := decode_encode_agree
  have stray : decode 0x1000000112#40 = .ok (.data .sto ⟨1, 2⟩) := rfl
  obtain ⟨-, -, -, same, alike⟩ := (words 0x1000000112#40).2 _ stray
  refine ⟨stray, ?_, (alike 0x1000000012#40).mpr (by decide +kernel), back _ ⟨by decide, by decide⟩,
    apart _ ?_⟩
  · rw [Ne, same]
    decide +kernel
  · exact fun narrow => absurd narrow.bank_lt (by decide)

end Instruction

end BitSerial
