import BitSerial.Geometry

/-!
# Errors in assembly text

What is wrong with a source, and on which line.
-/

namespace BitSerial

/-- Why a source was not assembled. -/
inductive AssemblyError
  /-- A label is bound a second time. -/
  | duplicateLabel (line : Nat) (label : String)
  /-- No operation has this mnemonic. -/
  | unknownMnemonic (line : Nat) (mnemonic : String)
  /-- An operand is neither a label nor a number where it stands. -/
  | unresolvedOperand (line : Nat) (operand : String)
  /-- An operation has too few operands. -/
  | missingOperand (line : Nat) (mnemonic : String)
  /-- An operation has too many operands; this is the first of those. -/
  | unexpectedOperand (line : Nat) (mnemonic operand : String)
  /-- No statement follows a label. -/
  | danglingLabel (line : Nat) (label : String)
  /-- A number or an address does not fit where it stands. -/
  | valueOutOfRange (line : Nat) (value : String)
  /-- There are more statements than words in main memory. -/
  | programTooLarge (size available : Nat)
  /-- There is no such machine to assemble for. -/
  | geometry (error : GeometryError)
  deriving DecidableEq

/-- The text of a refused source. -/
def AssemblyError.message : AssemblyError → String
  | .duplicateLabel line label => s!"duplicate label on line {line}: {label}"
  | .unknownMnemonic line mnemonic => s!"unknown mnemonic on line {line}: {mnemonic}"
  | .unresolvedOperand line operand => s!"unresolved operand on line {line}: {operand}"
  | .missingOperand line mnemonic => s!"missing operand on line {line} for {mnemonic}"
  | .unexpectedOperand line mnemonic operand =>
      s!"unexpected operand on line {line} for {mnemonic}: {operand}"
  | .danglingLabel line label =>
      s!"label on line {line} is not followed by an instruction: {label}"
  | .valueOutOfRange line value => s!"value out of range on line {line}: {value}"
  | .programTooLarge size available =>
      s!"program size {size} exceeds main memory of {available} words"
  | .geometry error => "configuration error: " ++ error.message

end BitSerial
