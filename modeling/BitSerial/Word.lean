import BitSerial.Bit
import BitSerial.Text.Numeral

/-!
# Machine words

A word is forty bits: an opcode byte above a thirty-two bit operand.  Read as a
number it is two's complement, with bit 39 the sign.
-/

namespace BitSerial

/-- A forty-bit machine word. -/
abbrev Word := BitVec 40

/-- The low thirty-two bits of an instruction word. -/
abbrev Operand := BitVec 32

namespace Word

/-- Bits 39 to 32. -/
def opcode (word : Word) : BitVec 8 :=
  word.extractLsb' 32 8

/-- Bits 31 to 0. -/
def operand (word : Word) : Operand :=
  word.extractLsb' 0 32

/-- The word with a given opcode byte above a given operand. -/
def ofParts (opcode : BitVec 8) (operand : Operand) : Word :=
  opcode ++ operand

/-- The word that a floating-point number holds: the number is cut toward zero
and brought into sixty-four bits, of which the low forty count. -/
def ofFloat (value : Float) : Word :=
  BitVec.ofNat 40 value.toUInt64.toNat

/-- The word as a signed number. -/
def signed (word : Word) : Int :=
  word.toInt

/-- Opcode and operand in hexadecimal, apart by a space. -/
def display (word : Word) : List Char :=
  Numeral.padded 2 (Numeral.hexadecimal (opcode word).toNat) ++
    ' ' :: Numeral.padded 8 (Numeral.hexadecimal (operand word).toNat)

/-- The display form for inspection, tagged and with a colon between the parts. -/
def inspect (word : Word) : String :=
  "Word(" ++ String.ofList (Numeral.padded 2 (Numeral.hexadecimal (opcode word).toNat)) ++ ":" ++
    String.ofList (Numeral.padded 8 (Numeral.hexadecimal (operand word).toNat)) ++ ")"

/-- All forty binary digits, most significant first. -/
def binaryDigits (word : Word) : String :=
  String.ofList (Numeral.padded 40 (Numeral.binary word.toNat))

@[simp]
theorem opcode_ofParts (opcode : BitVec 8) (operand : Operand) :
    Word.opcode (ofParts opcode operand) = opcode :=
  BitVec.extractLsb'_append_eq_left

@[simp]
theorem operand_ofParts (opcode : BitVec 8) (operand : Operand) :
    Word.operand (ofParts opcode operand) = operand :=
  BitVec.extractLsb'_append_eq_right

/-- A word is its opcode and its operand, and nothing else. -/
@[simp]
theorem ofParts_opcode_operand (word : Word) :
    ofParts (Word.opcode word) (Word.operand word) = word := by
  apply BitVec.eq_of_getLsbD_eq
  intro i hi
  show (BitVec.extractLsb' 32 8 word ++ BitVec.extractLsb' 0 32 word).getLsbD i = _
  rw [BitVec.getLsbD_append]
  split
  · simp [*]
  · simp only [BitVec.getLsbD_extractLsb']
    rw [show 32 + (i - 32) = i by omega]
    simp only [show i - 32 < 8 by omega, decide_true, Bool.true_and]

end Word

end BitSerial
