import BitSerial.LabelTable
import BitSerial.Text.UpperCase
import BitSerial.Word

/-!
# Assembled programs

A program is the words it puts at the tail of main memory, the address of the
first one, and the labels of its source by instruction index.
-/

namespace BitSerial

/-- An assembled program. -/
structure Program where
  /-- The address of the first word. -/
  base : Nat
  /-- The words in address order. -/
  words : List Word
  /-- Labels and the indices they are bound to. -/
  labels : LabelTable
  deriving DecidableEq

namespace Program

/-- Words in the program. -/
def size (program : Program) : Nat :=
  program.words.length

/-- The address of a label, spelled in any case. -/
def addressOf? (program : Program) (label : String) : Option Nat :=
  (program.labels.find? (String.ofList (Text.upper label.toList))).map fun index =>
    program.base + index

/-- The address of a label as a count.  There is no answer if a label has an
address and that is none. -/
def countOf? (program : Program) (label : String) : Option (Option Nat) :=
  match program.addressOf? label with
  | some address => (Count.fit? address).map some
  | none => some none

/-- The labels of an instruction, in name order. -/
def labelsAt (program : Program) (index : Nat) : List String :=
  program.labels.namesAt index

/-- The program as a structured value. -/
def toJson (program : Program) : Json :=
  .object [
    ("base_address", .nat program.base),
    ("words", .array (program.words.map fun word => .nat word.toNat)),
    ("labels", program.labels.toJson)]

/-- The word that a number spells.  Wider numbers are refused, not cut. -/
def word? (value : Json) : Option Word :=
  (value.natBelow? wordLimit).map (BitVec.ofNat 40)

/-- The words in a structured value. -/
def words? : Json → Option (List Word)
  | .array items => items.mapM word?
  | _ => none

/-- The program in a structured value. -/
def ofJson? (value : Json) : Option Program :=
  match Json.allFields? ["base_address", "words", "labels"] value with
  | some [base, words, labels] => do
      let base ← base.count?
      let words ← words? words
      let labels ← LabelTable.ofJson? labels
      return { base, words, labels }
  | _ => none

end Program

end BitSerial
