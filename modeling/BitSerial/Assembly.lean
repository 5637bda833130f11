import BitSerial.Assembly.Literal
import BitSerial.Assembly.Outline
import BitSerial.Program

/-!
# Assembly

A source is assembled in two passes.  The first makes its outline; the size of
the outline fixes the base address, since programs end where main memory ends.
The second turns every statement into a word, with labels resolved against that
base.
-/

namespace BitSerial

namespace Statement

/-- The largest count of an operation that repeats another. -/
def repetitionLimit : Nat :=
  65536

/-- The number of an operand that must be one. -/
def literal (statement : Statement) (text : List Char) : Except AssemblyError Operand :=
  match Literal.ofText? text with
  | none => .error (.unresolvedOperand statement.line (String.ofList text))
  | some literal =>
      match literal.operand? with
      | some value => .ok value
      | none => .error (.valueOutOfRange statement.line (String.ofList text))

/-- The number of an operand that is a label or a number.  Labels come first,
and count from an origin. -/
def resolve (statement : Statement) (labels : LabelTable) (origin : Nat) (text : List Char) :
    Except AssemblyError Operand :=
  match labels.find? (String.ofList text) with
  | some index =>
      let address := origin + index
      if address < operandLimit then .ok (BitVec.ofNat 32 address)
      else .error (.valueOutOfRange statement.line (toString address))
  | none => statement.literal text

/-- One part of a data address. -/
def nibble (statement : Statement) (text : List Char) : Except AssemblyError (BitVec 8) := do
  let value ← statement.literal text
  if value.toNat < 16 then return value.setWidth 8
  else .error (.valueOutOfRange statement.line (String.ofList text))

/-- The error of an operand that is not there. -/
def missing (statement : Statement) : AssemblyError :=
  .missingOperand statement.line statement.directive.mnemonic

/-- The operand of a statement that has just one. -/
def soleOperand (statement : Statement) : Except AssemblyError (List Char) :=
  match statement.operands with
  | text :: _ => .ok text
  | [] => .error statement.missing

/-- The data address of a statement that has one. -/
def dataAddress (statement : Statement) : Except AssemblyError DataAddress := do
  match statement.operands with
  | [bank, word] =>
      let bank ← statement.nibble bank
      let word ← statement.nibble word
      return DataAddress.ofNibbles bank word
  | _ => .error statement.missing

/-- The operand field of an instruction. -/
def operandField (statement : Statement) (labels : LabelTable) (base : Nat) :
    OperandForm → Except AssemblyError Operand
  | .none => .ok 0
  | .relative => do statement.resolve labels 0 (← statement.soleOperand)
  | .absolute => do statement.resolve labels base (← statement.soleOperand)
  | .count => do statement.literal (← statement.soleOperand)
  | .repetitions => do
      let text ← statement.soleOperand
      let value ← statement.literal text
      if value.toNat ≤ repetitionLimit then return value
      else .error (.valueOutOfRange statement.line (String.ofList text))
  | .dataWord => DataAddress.toOperand <$> statement.dataAddress

/-- The number that a `DAT` puts into the program. -/
def number (statement : Statement) : Except AssemblyError Word := do
  let text ← statement.soleOperand
  match Literal.ofText? text with
  | none => .error (.unresolvedOperand statement.line (String.ofList text))
  | some literal =>
      match literal.word? with
      | some word => return word
      | none => .error (.valueOutOfRange statement.line (String.ofList text))

/-- The word of a statement in a program with given labels and base. -/
def encode (statement : Statement) (labels : LabelTable) (base : Nat) :
    Except AssemblyError Word :=
  match statement.directive with
  | .word => statement.number
  | .instruction opcode =>
      (statement.operandField labels base opcode.operandForm).map (Word.ofParts opcode.byte)

end Statement

/-- Put an outline at the tail of a main memory. -/
def Outline.place (capacity : Nat) (outline : Outline) : Except AssemblyError Program :=
  if capacity < outline.size then
    .error (.programTooLarge outline.size capacity)
  else do
    let base := capacity - outline.size
    let words ← outline.statements.toList.mapM fun statement =>
      statement.encode outline.labels base
    return { base, words, labels := outline.labels }

/-- Assemble a source for machines of a geometry. -/
def Program.assemble (geometry : Geometry) (source : String) : Except AssemblyError Program :=
  match geometry.validate with
  | .error error => .error (.geometry error)
  | .ok _ => do
      let outline ← Outline.ofSource source.toList
      outline.place geometry.mainWords

end BitSerial
