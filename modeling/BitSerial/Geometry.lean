import BitSerial.Json.Value

/-!
# Machine geometry

How many words the program line holds, and how many banks of how many words
there are for data.  Data addresses have four bits for either part, which
bounds both at sixteen.
-/

namespace BitSerial

/-- The measures of a machine. -/
structure Geometry where
  /-- Words in the program line. -/
  mainWords : Nat := 64
  /-- Data banks. -/
  dataBanks : Nat := 4
  /-- Words in each data bank. -/
  bankWords : Nat := 16
  deriving DecidableEq

/-- What is wrong with a geometry. -/
inductive GeometryError
  | emptyMainMemory
  | dataBanks (count : Nat)
  | bankWords (count : Nat)
  deriving DecidableEq

/-- The text of a refused geometry. -/
def GeometryError.message : GeometryError → String
  | .emptyMainMemory => "main memory must hold at least one word"
  | .dataBanks count => s!"data bank count {count} out of range (1-16)"
  | .bankWords count => s!"words per data bank {count} out of range (1-16)"

namespace Geometry

/-- A geometry that can be built and addressed. -/
structure Valid (geometry : Geometry) : Prop where
  mainWords_pos : 0 < geometry.mainWords
  dataBanks_pos : 0 < geometry.dataBanks
  dataBanks_le : geometry.dataBanks ≤ 16
  bankWords_pos : 0 < geometry.bankWords
  bankWords_le : geometry.bankWords ≤ 16

/-- Check a geometry, program line first, then banks, then their words. -/
def validate (geometry : Geometry) : Except GeometryError (PLift geometry.Valid) :=
  if noMain : geometry.mainWords = 0 then
    .error .emptyMainMemory
  else if badBanks : geometry.dataBanks = 0 ∨ 16 < geometry.dataBanks then
    .error (.dataBanks geometry.dataBanks)
  else if badWords : geometry.bankWords = 0 ∨ 16 < geometry.bankWords then
    .error (.bankWords geometry.bankWords)
  else
    .ok ⟨{
      mainWords_pos := by omega
      dataBanks_pos := by omega
      dataBanks_le := by omega
      bankWords_pos := by omega
      bankWords_le := by omega }⟩

/-- The standard geometry can be built. -/
theorem valid_standard : Geometry.Valid {} where
  mainWords_pos := by decide
  dataBanks_pos := by decide
  dataBanks_le := by decide
  bankWords_pos := by decide
  bankWords_le := by decide

/-- The geometry as a structured value. -/
def toJson (geometry : Geometry) : Json :=
  .object [
    ("main_words", .nat geometry.mainWords),
    ("data_banks", .nat geometry.dataBanks),
    ("bank_words", .nat geometry.bankWords)]

/-- A measure from a structured value, the standard one if the value is
missing. -/
def measure? (standard : Nat) : Option Json → Option Nat
  | none => some standard
  | some value => value.count?

/-- The geometry in a structured value.  Missing measures are the standard
ones. -/
def ofJson? (value : Json) : Option Geometry :=
  match Json.fields? ["main_words", "data_banks", "bank_words"] value with
  | some [mainWords, dataBanks, bankWords] => do
      let standard : Geometry := {}
      let mainWords ← measure? standard.mainWords mainWords
      let dataBanks ← measure? standard.dataBanks dataBanks
      let bankWords ← measure? standard.bankWords bankWords
      return { mainWords, dataBanks, bankWords }
  | _ => none

/-- Checking succeeds exactly on the geometries that can be built. -/
theorem validate_eq_ok_iff {geometry : Geometry} :
    (∃ valid, geometry.validate = .ok valid) ↔ geometry.Valid := by
  constructor
  · rintro ⟨⟨valid⟩, _⟩
    exact valid
  · intro valid
    have noMain := valid.mainWords_pos
    have banks := valid.dataBanks_pos
    have banksLe := valid.dataBanks_le
    have words := valid.bankWords_pos
    have wordsLe := valid.bankWords_le
    refine ⟨⟨valid⟩, ?_⟩
    rw [validate, dif_neg (by omega), dif_neg (by omega), dif_neg (by omega)]

end Geometry

end BitSerial
