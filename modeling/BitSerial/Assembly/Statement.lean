import BitSerial.Assembly.Error
import BitSerial.Instruction
import BitSerial.Text.Blank
import BitSerial.Text.UpperCase

/-!
# Statements

A line of assembly text holds a label before a colon, a statement, both or
neither; a semicolon ends it early.  A statement is an operation with as many
operands as were written, at most as many as the operation takes: `DAT` puts a
number into the program as it is, any other mnemonic an instruction.  Letters
count in upper case.
-/

namespace BitSerial

/-- How the operands of an operation are read. -/
inductive OperandForm
  /-- There are none. -/
  | none
  /-- A number, or a label for its instruction index. -/
  | relative
  /-- A number, or a label for its address. -/
  | absolute
  /-- A number. -/
  | count
  /-- A number that is not too large to repeat an operation so often. -/
  | repetitions
  /-- Bank and word of a data word. -/
  | dataWord
  deriving DecidableEq

/-- How many operands there are. -/
def OperandForm.arity : OperandForm → Nat
  | .none => 0
  | .dataWord => 2
  | _ => 1

/-- How an operation's operands are read. -/
def Opcode.operandForm : Opcode → OperandForm
  | .plain _ => .none
  | .wide op =>
      match op with
      | .jmp | .jza | .jna => .relative
      | .rnd => .count
      | .mla => .repetitions
      | .lai | .lbi | .lea | .leb | .ldp | .stp | .jmpa => .absolute
  | .data _ => .dataWord

/-- What a statement puts into the program. -/
inductive Directive
  | instruction (opcode : Opcode)
  /-- A number as it is. -/
  | word
  deriving DecidableEq

namespace Directive

/-- The mnemonic that asks for a directive. -/
def mnemonic : Directive → String
  | .instruction opcode => opcode.mnemonic
  | .word => "DAT"

/-- How many operands a directive takes. -/
def arity : Directive → Nat
  | .instruction opcode => opcode.operandForm.arity
  | .word => 1

/-- The directive that a mnemonic asks for. -/
def ofMnemonic? (mnemonic : List Char) : Option Directive :=
  if mnemonic = "DAT".toList then some .word
  else (Opcode.ofMnemonic? mnemonic).map .instruction

end Directive

/-- A directive with its operands, none too many. -/
structure Statement where
  /-- The line it stands on, from one. -/
  line : Nat
  directive : Directive
  operands : List (List Char)
  length_operands : operands.length ≤ directive.arity

/-- The statement that a mnemonic and operands make. -/
def Statement.ofWords (line : Nat) (mnemonic : List Char) (operands : List (List Char)) :
    Except AssemblyError Statement :=
  match Directive.ofMnemonic? mnemonic with
  | none => .error (.unknownMnemonic line (String.ofList mnemonic))
  | some directive =>
      if excess : directive.arity < operands.length then
        .error (.unexpectedOperand line (String.ofList mnemonic)
          (String.ofList operands[directive.arity]))
      else
        .ok ⟨line, directive, operands, Nat.le_of_not_lt excess⟩

/-- A line taken apart. -/
structure SourceLine where
  /-- The text before the colon, if there is any. -/
  label : Option (List Char)
  /-- Mnemonic and operands, if there are any. -/
  statement : Option (List Char × List (List Char))
  deriving DecidableEq

namespace SourceLine

/-- A line without its comment and the blanks around it. -/
def code (line : List Char) : List Char :=
  Text.trim (line.takeWhile (· ≠ ';'))

/-- The label that a text before a colon spells. -/
def label? (text : List Char) : Option (List Char) :=
  match Text.upper (Text.trim text) with
  | [] => none
  | label => some label

/-- Label and remaining text of a line. -/
def splitLabel (code : List Char) : Option (List Char) × List Char :=
  match code.dropWhile (· ≠ ':') with
  | [] => (none, code)
  | _ :: rest => (label? (code.takeWhile (· ≠ ':')), rest)

/-- The operands in the words behind a mnemonic, parted by blanks, commas or
both. -/
def operands (words : List (List Char)) : List (List Char) :=
  (words.flatMap fun word => Text.runs (· = ',') word).map Text.upper

/-- Mnemonic and operands of a text. -/
def statement? (text : List Char) : Option (List Char × List (List Char)) :=
  match Text.words text with
  | [] => none
  | mnemonic :: rest => some (Text.upper mnemonic, operands rest)

/-- Take a line apart. -/
def parse (line : List Char) : SourceLine :=
  let (label, rest) := splitLabel (code line)
  ⟨label, statement? rest⟩

end SourceLine

end BitSerial
