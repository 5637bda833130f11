import BitSerial.Assembly.Statement
import BitSerial.LabelTable
import BitSerial.Text.Lines

/-!
# Outlines

The statements of a source in order, and its labels by the index of the
statement that follows them.  The outline is known before any address is, since
a program's place depends on its size.
-/

namespace BitSerial

/-- The statements and labels of a source. -/
structure Outline where
  labels : LabelTable
  statements : Array Statement
  /-- Line and name of the first label that no statement follows yet. -/
  pending : Option (Nat × String)

namespace Outline

/-- The outline of no lines. -/
def empty : Outline :=
  ⟨.empty, #[], none⟩

/-- How many words the program has. -/
def size (outline : Outline) : Nat :=
  outline.statements.size

/-- Bind a label to the statement to come. -/
def addLabel (line : Nat) (label : String) (outline : Outline) : Except AssemblyError Outline :=
  match outline.labels.find? label with
  | some _ => .error (.duplicateLabel line label)
  | none =>
      .ok { outline with
        labels := outline.labels.insert label outline.size
        pending := outline.pending <|> some (line, label) }

/-- Append a statement. -/
def addStatement (statement : Statement) (outline : Outline) : Outline :=
  { outline with
    statements := outline.statements.push statement
    pending := none }

/-- Take in a line: first its label, then its statement. -/
def addLine (number : Nat) (line : SourceLine) (outline : Outline) :
    Except AssemblyError Outline := do
  let labelled ←
    match line.label with
    | none => .ok outline
    | some label => outline.addLabel number (String.ofList label)
  match line.statement with
  | none => return labelled
  | some (mnemonic, operands) =>
      let statement ← Statement.ofWords number mnemonic operands
      return labelled.addStatement statement

/-- Take in lines that are numbered from a given number on. -/
def addLines : Nat → List (List Char) → Outline → Except AssemblyError Outline
  | _, [], outline => .ok outline
  | number, line :: rest, outline =>
      match outline.addLine number (SourceLine.parse line) with
      | .ok outline => addLines (number + 1) rest outline
      | .error error => .error error

/-- The outline of a source.  Every label must come before a statement. -/
def ofSource (source : List Char) : Except AssemblyError Outline :=
  match addLines 1 (Text.lines source) empty with
  | .error error => .error error
  | .ok outline =>
      match outline.pending with
      | none => .ok outline
      | some (line, label) => .error (.danglingLabel line label)

end Outline

end BitSerial
