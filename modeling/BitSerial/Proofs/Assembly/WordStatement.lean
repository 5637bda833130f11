import BitSerial.Assembly
import BitSerial.Proofs.Assembly.Literals
import BitSerial.Proofs.Assembly.Passes
import BitSerial.Proofs.Instruction.DataAddresses
import BitSerial.Proofs.Instruction.Opcodes

/-!
# Statements for words

Every word has a statement that is meant to put it into a program: its instruction with
numbers for operands, or its own number.  The word is what the statement makes, unless
it has bits that its instruction leaves out or repeats an operation too often.
-/

namespace BitSerial

/-! ## The statement that is meant -/

theorem Opcode.arity_wide (op : WideOp) : (Opcode.wide op).operandForm.arity = 1 := by
  cases op <;> rfl

/-- The statement of an instruction, every operand a number. -/
def Instruction.statement (line : Nat) : Instruction → Statement
  | .plain op => ⟨line, .instruction (.plain op), [], Nat.le_refl _⟩
  | .wide op operand =>
      ⟨line, .instruction (.wide op), [Numeral.decimal operand.toNat],
        Nat.le_of_eq (Opcode.arity_wide op).symm⟩
  | .data op address =>
      ⟨line, .instruction (.data op),
        [Numeral.decimal address.bank.toNat, Numeral.decimal address.word.toNat], Nat.le_refl _⟩

/-- The statement that the text of a word is. -/
def Word.statement (line : Nat) (word : Word) : Statement :=
  match Instruction.decode word with
  | .ok instruction => instruction.statement line
  | .error _ =>
      ⟨line, .word, ['0' :: 'X' :: Numeral.padded 10 (Numeral.hexadecimal word.toNat)],
        Nat.le_refl _⟩

/-- A statement is made again from what was written. -/
theorem Statement.ofWords_written (statement : Statement) :
    ofWords statement.line statement.written.1 statement.written.2 = .ok statement := by
  have asked := Directive.ofMnemonic_mnemonic statement.directive
  rw [ofWords, written, asked]
  dsimp only
  rw [dif_neg (Nat.not_lt_of_le statement.length_operands)]

/-! ## The word that is asked for -/

/-- A table that gives no name to a decimal numeral. -/
def LabelTable.Nonnumeric (table : LabelTable) : Prop :=
  ∀ entry ∈ table.entries, ∀ value, entry.1.toList ≠ Numeral.decimal value

/-- Any other character in a name will do. -/
theorem LabelTable.nonnumeric_of_all {table : LabelTable}
    (letter : (table.entries.all fun entry => !entry.1.toList.all Numeral.isDecimal) = true) :
    table.Nonnumeric := by
  intro entry member value same
  have other := List.all_eq_true.mp letter entry member
  rw [same, List.all_eq_true.mpr Numeral.isDecimal_of_mem_decimal] at other
  cases other

theorem LabelTable.Nonnumeric.find?_decimal {table : LabelTable} (nonnumeric : table.Nonnumeric)
    (value : Nat) : table.find? (String.ofList (Numeral.decimal value)) = none := by
  rw [find?, List.lookup_eq_none_iff]
  intro entry member
  rw [bne_iff_ne]
  intro same
  apply nonnumeric entry member value
  rw [← same, String.toList_ofList]

namespace Statement

variable {labels : LabelTable} {base : Nat}

/-- The decimal numeral of an operand stands for it. -/
theorem literal_decimal (statement : Statement) (operand : Operand) :
    statement.literal (Numeral.decimal operand.toNat) = .ok operand := by
  have small : operand.toNat < countLimit := Nat.lt_trans operand.isLt (by decide)
  rw [literal, Literal.ofText?_decimal small]
  dsimp only
  rw [Literal.operand?_toNat]

/-- So it does where a label could stand. -/
theorem resolve_decimal (statement : Statement) (nonnumeric : labels.Nonnumeric) (origin : Nat)
    (operand : Operand) :
    statement.resolve labels origin (Numeral.decimal operand.toNat) = .ok operand := by
  rw [resolve, nonnumeric.find?_decimal]
  exact statement.literal_decimal operand

theorem nibble_decimal (statement : Statement) {part : BitVec 8} (small : part.toNat < 16) :
    statement.nibble (Numeral.decimal part.toNat) = .ok part := by
  have wide : (part.setWidth 32).toNat = part.toNat := by
    rw [BitVec.toNat_setWidth]
    exact Nat.mod_eq_of_lt (Nat.lt_trans small (by decide))
  have read := statement.literal_decimal (part.setWidth 32)
  rw [wide] at read
  rw [nibble, read]
  show (if (part.setWidth 32).toNat < 16 then Except.ok ((part.setWidth 32).setWidth 8) else _) = _
  rw [wide, if_pos small, BitVec.setWidth_setWidth_of_le _ (by decide), BitVec.setWidth_eq]

/-- A wide instruction gets the operand that is written, whichever way it reads it. -/
theorem operandField_decimal (statement : Statement) (nonnumeric : labels.Nonnumeric) {op : WideOp}
    {operand : Operand} (operands : statement.operands = [Numeral.decimal operand.toNat])
    (limited : op = .mla → operand.toNat ≤ repetitionLimit) :
    statement.operandField labels base (Opcode.wide op).operandForm = .ok operand := by
  have sole : statement.soleOperand = .ok (Numeral.decimal operand.toNat) := by
    rw [soleOperand, operands]
  cases op with
  | jmp | jza | jna | lai | lbi | lea | leb | ldp | stp | jmpa =>
      show (statement.soleOperand >>= statement.resolve labels _) = _
      rw [sole]
      exact statement.resolve_decimal nonnumeric _ operand
  | rnd =>
      show (statement.soleOperand >>= statement.literal) = _
      rw [sole]
      exact statement.literal_decimal operand
  | mla =>
      rw [Opcode.operandForm, operandField, sole]
      show (statement.literal (Numeral.decimal operand.toNat) >>= _) = _
      rw [statement.literal_decimal]
      show (if operand.toNat ≤ repetitionLimit then Except.ok operand else _) = _
      rw [if_pos (limited rfl)]

theorem dataAddress_decimal (statement : Statement) {address : DataAddress}
    (narrow : address.Narrow) (operands : statement.operands =
      [Numeral.decimal address.bank.toNat, Numeral.decimal address.word.toNat]) :
    statement.dataAddress = .ok address := by
  rw [dataAddress, operands]
  dsimp only
  rw [statement.nibble_decimal narrow.bank_lt, statement.nibble_decimal narrow.word_lt]
  exact congrArg Except.ok narrow.ofNibbles_eq

/-- The hexadecimal numeral of a word stands for it. -/
theorem number_hexadecimal (statement : Statement) {word : Word} {width : Nat}
    (operands : statement.operands =
      ['0' :: 'X' :: Numeral.padded width (Numeral.hexadecimal word.toNat)]) :
    statement.number = .ok word := by
  have small : word.toNat < countLimit := Nat.lt_trans word.isLt (by decide)
  have sole : statement.soleOperand =
      .ok ('0' :: 'X' :: Numeral.padded width (Numeral.hexadecimal word.toNat)) := by
    rw [soleOperand, operands]
  rw [number, sole]
  dsimp only [bind, Except.bind]
  rw [Literal.ofText?_hexadecimal small width]
  dsimp only
  rw [Literal.word?_toNat]
  rfl

end Statement

/-- An instruction that a source can ask for. -/
def Instruction.Writable : Instruction → Prop
  | .plain _ => True
  | .wide op operand => op = .mla → operand.toNat ≤ Statement.repetitionLimit
  | .data _ address => address.Narrow

instance (instruction : Instruction) : Decidable instruction.Writable :=
  match instruction with
  | .plain _ => .isTrue trivial
  | .wide op operand =>
      inferInstanceAs (Decidable (op = .mla → operand.toNat ≤ Statement.repetitionLimit))
  | .data _ address => inferInstanceAs (Decidable address.Narrow)

variable {labels : LabelTable} {base : Nat}

/-- The statement of an instruction asks for it. -/
theorem Instruction.Writable.encode_statement {instruction : Instruction}
    (writable : instruction.Writable) (nonnumeric : labels.Nonnumeric) (line : Nat) :
    (instruction.statement line).encode labels base = .ok instruction.encode := by
  cases instruction with
  | plain op => rfl
  | wide op operand =>
      let statement := Instruction.statement line (.wide op operand)
      show (statement.operandField labels base (Opcode.wide op).operandForm).map _ = _
      rw [statement.operandField_decimal nonnumeric rfl writable]
      rfl
  | data op address =>
      let statement := Instruction.statement line (.data op address)
      show (DataAddress.toOperand <$> statement.dataAddress).map _ = _
      rw [statement.dataAddress_decimal writable rfl]
      rfl

/-- A word that its text asks for: it is no instruction, or one without stray bits
that repeats nothing too often. -/
def Word.Canonical (word : Word) : Prop :=
  ∀ instruction, Instruction.decode word = .ok instruction →
    instruction.encode = word ∧
      ∀ count, instruction = .wide .mla count → count.toNat ≤ Statement.repetitionLimit

theorem Word.Canonical.writable {word : Word} (canonical : word.Canonical)
    {instruction : Instruction} (decoded : Instruction.decode word = .ok instruction) :
    instruction.Writable := by
  cases instruction with
  | plain op => trivial
  | wide op operand =>
      rintro rfl
      exact (canonical _ decoded).2 operand rfl
  | data op address =>
      have read := (Instruction.decode_eq_ok_iff.mp decoded).2
      cases read
      exact DataAddress.narrow_ofOperand _

theorem Word.canonical_iff {word : Word} :
    word.Canonical ↔ ∀ instruction ∈ (Instruction.decode word).toOption,
      instruction.encode = word ∧ instruction.Writable := by
  have decoded {instruction : Instruction} :
      instruction ∈ (Instruction.decode word).toOption ↔
        Instruction.decode word = .ok instruction := by
    cases Instruction.decode word <;> simp [Except.toOption]
  constructor
  · intro canonical instruction member
    have read := decoded.mp member
    exact ⟨(canonical instruction read).1, canonical.writable read⟩
  · intro each instruction read
    obtain ⟨encoded, writable⟩ := each instruction (decoded.mpr read)
    refine ⟨encoded, ?_⟩
    rintro count rfl
    exact writable rfl

instance (word : Word) : Decidable word.Canonical :=
  decidable_of_iff _ Word.canonical_iff.symm

/-- The statement of a word that is no instruction is its number. -/
theorem Word.encode_statement_of_error {word : Word} {unknown : UnknownOpcode}
    (undecoded : Instruction.decode word = .error unknown) (line : Nat) :
    (word.statement line).encode labels base = .ok word := by
  rw [statement, undecoded]
  exact Statement.number_hexadecimal _ rfl

/-- The statement that the text of a word is asks for the word. -/
theorem Word.Canonical.encode_statement {word : Word} (canonical : word.Canonical)
    (nonnumeric : labels.Nonnumeric) (line : Nat) :
    (word.statement line).encode labels base = .ok word := by
  cases decoded : Instruction.decode word with
  | error unknown => exact encode_statement_of_error decoded line
  | ok instruction =>
      rw [Word.statement, decoded]
      dsimp only
      rw [(canonical.writable decoded).encode_statement nonnumeric,
        (canonical instruction decoded).1]

end BitSerial
