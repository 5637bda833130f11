import BitSerial.Word

/-!
# Instructions

Twenty-nine operations in three families: plain ones stand alone, wide ones
carry a thirty-two bit operand, data ones carry the address of a data word.
Each has an opcode byte and a mnemonic of its own; the bytes are part of every
stored program.
-/

namespace BitSerial

/-- The address of a data word: a bank and a word in it. -/
structure DataAddress where
  bank : BitVec 8
  word : BitVec 8
  deriving DecidableEq

namespace DataAddress

/-- The address with only the low four bits of either part. -/
def ofNibbles (bank word : BitVec 8) : DataAddress :=
  ⟨bank &&& 0x0F#8, word &&& 0x0F#8⟩

/-- The address in the low byte of an operand, bank above word. -/
def ofOperand (operand : Operand) : DataAddress :=
  ofNibbles ((operand >>> 4).setWidth 8) (operand.setWidth 8)

/-- The operand that carries an address. -/
def toOperand (address : DataAddress) : Operand :=
  address.bank.setWidth 32 <<< 4 ||| address.word.setWidth 32

end DataAddress

/-- Operations without an operand. -/
inductive PlainOp
  /-- Do nothing. -/
  | nop
  /-- A := A + B. -/
  | add
  /-- B := -B. -/
  | neg
  /-- Halve A by one pulse. -/
  | shl
  /-- Double A through S. -/
  | shr
  /-- A := A and B. -/
  | and
  /-- A := A or B. -/
  | orr
  /-- A := A exclusive or B. -/
  | xor
  /-- A := A * B, using B up. -/
  | mul
  /-- Print A as a signed number. -/
  | pra
  /-- Halt. -/
  | hlt
  deriving DecidableEq

/-- Operations with a thirty-two bit operand. -/
inductive WideOp
  /-- A := operand. -/
  | lai
  /-- B := operand. -/
  | lbi
  /-- A := operand, high bit first. -/
  | lea
  /-- B := operand, high bit first. -/
  | leb
  /-- Clear the low bits of A, operand of them. -/
  | rnd
  /-- A := A + operand * B. -/
  | mla
  /-- A := program word. -/
  | ldp
  /-- Program word := A. -/
  | stp
  /-- Jump to base + operand. -/
  | jmp
  /-- Jump to operand. -/
  | jmpa
  /-- Jump to base + operand if A is zero. -/
  | jza
  /-- Jump to base + operand if A is negative. -/
  | jna
  deriving DecidableEq

/-- Operations on a data word. -/
inductive DataOp
  /-- Word := A. -/
  | sto
  /-- Word := B. -/
  | stb
  /-- Word := A, then A := 0. -/
  | stc
  /-- A := word. -/
  | lda
  /-- B := word. -/
  | ldb
  /-- S := word, then A := A + (S and B). -/
  | col
  deriving DecidableEq

/-- What an instruction does, without its operand. -/
inductive Opcode
  | plain (op : PlainOp)
  | wide (op : WideOp)
  | data (op : DataOp)
  deriving DecidableEq

namespace Opcode

/-- All operations, by opcode byte. -/
def all : List Opcode :=
  [.plain .nop, .wide .lai, .wide .lbi, .wide .lea, .wide .leb, .plain .add, .plain .neg,
    .plain .shl, .plain .shr, .plain .and, .plain .orr, .plain .xor, .plain .mul, .wide .rnd,
    .wide .mla, .data .sto, .data .stb, .data .stc, .data .lda, .data .ldb, .data .col,
    .wide .ldp, .wide .stp, .wide .jmp, .wide .jmpa, .wide .jza, .wide .jna, .plain .pra,
    .plain .hlt]

/-- The opcode byte. -/
def byte : Opcode → BitVec 8
  | .plain .nop => 0x00#8
  | .wide .lai => 0x01#8
  | .wide .lbi => 0x02#8
  | .wide .lea => 0x03#8
  | .wide .leb => 0x04#8
  | .plain .add => 0x05#8
  | .plain .neg => 0x06#8
  | .plain .shl => 0x07#8
  | .plain .shr => 0x08#8
  | .plain .and => 0x09#8
  | .plain .orr => 0x0A#8
  | .plain .xor => 0x0B#8
  | .plain .mul => 0x0C#8
  | .wide .rnd => 0x0D#8
  | .wide .mla => 0x0E#8
  | .data .sto => 0x10#8
  | .data .stb => 0x11#8
  | .data .stc => 0x12#8
  | .data .lda => 0x13#8
  | .data .ldb => 0x14#8
  | .data .col => 0x15#8
  | .wide .ldp => 0x18#8
  | .wide .stp => 0x19#8
  | .wide .jmp => 0x20#8
  | .wide .jmpa => 0x21#8
  | .wide .jza => 0x22#8
  | .wide .jna => 0x23#8
  | .plain .pra => 0x30#8
  | .plain .hlt => 0xFF#8

/-- The mnemonic. -/
def mnemonic : Opcode → String
  | .plain .nop => "NOP"
  | .wide .lai => "LAI"
  | .wide .lbi => "LBI"
  | .wide .lea => "LEA"
  | .wide .leb => "LEB"
  | .plain .add => "ADD"
  | .plain .neg => "NEG"
  | .plain .shl => "SHL"
  | .plain .shr => "SHR"
  | .plain .and => "AND"
  | .plain .orr => "ORR"
  | .plain .xor => "XOR"
  | .plain .mul => "MUL"
  | .wide .rnd => "RND"
  | .wide .mla => "MLA"
  | .data .sto => "STO"
  | .data .stb => "STB"
  | .data .stc => "STC"
  | .data .lda => "LDA"
  | .data .ldb => "LDB"
  | .data .col => "COL"
  | .wide .ldp => "LDP"
  | .wide .stp => "STP"
  | .wide .jmp => "JMP"
  | .wide .jmpa => "JMPA"
  | .wide .jza => "JZA"
  | .wide .jna => "JNA"
  | .plain .pra => "PRA"
  | .plain .hlt => "HLT"

/-- The mnemonic with only its first letter upper case, the name of an
operation in snapshots. -/
def name (opcode : Opcode) : String :=
  match opcode.mnemonic.toList with
  | first :: rest => String.ofList (first :: rest.map Char.toLower)
  | [] => ""

/-- The operation with a given opcode byte. -/
def ofByte? (byte : BitVec 8) : Option Opcode :=
  all.find? fun opcode => opcode.byte = byte

/-- The operation with a given mnemonic. -/
def ofMnemonic? (mnemonic : List Char) : Option Opcode :=
  all.find? fun opcode => opcode.mnemonic.toList = mnemonic

/-- The operation with a given name. -/
def ofName? (name : String) : Option Opcode :=
  all.find? fun opcode => opcode.name = name

/-- No operation is missing from the list. -/
theorem mem_all (opcode : Opcode) : opcode ∈ all := by
  rcases opcode with op | op | op <;> cases op <;> decide

/-- An opcode byte is read exactly as the operation it belongs to. -/
theorem ofByte?_eq_some_iff {byte : BitVec 8} {opcode : Opcode} :
    ofByte? byte = some opcode ↔ opcode.byte = byte := by
  constructor
  · intro found
    simpa using List.find?_some found
  · rintro rfl
    rcases opcode with op | op | op <;> cases op <;> rfl

end Opcode

/-- An operation with its operand. -/
inductive Instruction
  | plain (op : PlainOp)
  | wide (op : WideOp) (operand : Operand)
  | data (op : DataOp) (address : DataAddress)
  deriving DecidableEq

/-- A word whose opcode byte belongs to no operation. -/
structure UnknownOpcode where
  byte : BitVec 8
  deriving DecidableEq

/-- The text of an unknown opcode, byte in hexadecimal. -/
def UnknownOpcode.message (error : UnknownOpcode) : String :=
  "unknown opcode: 0x" ++ String.ofList (Numeral.padded 2 (Numeral.hexadecimal error.byte.toNat))

namespace Instruction

/-- What the instruction does. -/
def opcode : Instruction → Opcode
  | .plain op => .plain op
  | .wide op _ => .wide op
  | .data op _ => .data op

/-- The mnemonic of the instruction's operation. -/
def mnemonic (instruction : Instruction) : String :=
  instruction.opcode.mnemonic

/-- The operand as it stands in the word, zero for plain operations. -/
def operand : Instruction → Operand
  | .plain _ => 0
  | .wide _ operand => operand
  | .data _ address => address.toOperand

/-- The instruction of an operation with an operand taken from a word. -/
def ofOpcode (opcode : Opcode) (operand : Operand) : Instruction :=
  match opcode with
  | .plain op => .plain op
  | .wide op => .wide op operand
  | .data op => .data op (DataAddress.ofOperand operand)

/-- The word of an instruction. -/
def encode (instruction : Instruction) : Word :=
  Word.ofParts instruction.opcode.byte instruction.operand

/-- The instruction in a word. -/
def decode (word : Word) : Except UnknownOpcode Instruction :=
  match Opcode.ofByte? (Word.opcode word) with
  | some opcode => .ok (ofOpcode opcode (Word.operand word))
  | none => .error ⟨Word.opcode word⟩

/-- The instruction as assembly text. -/
def text (instruction : Instruction) : List Char :=
  let mnemonic := instruction.mnemonic.toList
  match instruction with
  | .plain _ => mnemonic
  | .wide _ operand => mnemonic ++ ' ' :: Numeral.decimal operand.toNat
  | .data _ address =>
      mnemonic ++ ' ' :: Numeral.decimal address.bank.toNat ++
        ',' :: ' ' :: Numeral.decimal address.word.toNat

/-- The instruction for inspection. -/
def inspect (instruction : Instruction) : String :=
  let name := instruction.opcode.name
  match instruction with
  | .plain _ => name
  | .wide _ operand => name ++ "(" ++ toString operand.toNat ++ ")"
  | .data _ address =>
      name ++ "(DataAddr \x7b bank: " ++ toString address.bank.toNat ++ ", word: " ++
        toString address.word.toNat ++ " \x7d)"

@[simp]
theorem opcode_ofOpcode (opcode : Opcode) (operand : Operand) :
    (ofOpcode opcode operand).opcode = opcode := by
  cases opcode <;> rfl

end Instruction

end BitSerial
