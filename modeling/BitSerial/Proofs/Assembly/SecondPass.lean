import BitSerial.Proofs.Assembly.Grammar
import BitSerial.Proofs.Instruction.DataAddresses

/-!
# The second pass

A statement of an outline is encoded as the word that it stands for, and is refused for
what keeps it from standing for one.  The first statement that is refused is what a
program is refused for.
-/

namespace BitSerial

/-! ## Numbers -/

namespace Grammar

variable {α : Type} {value? : Literal → Option α} {line : Nat} {text : List Char}
  {value : α} {error : AssemblyError}

/-- The value of the number that a text spells. -/
def spell (value? : Literal → Option α) (line : Nat) (text : List Char) :
    Except AssemblyError α :=
  match Literal.ofText? text with
  | none => .error (.unresolvedOperand line (String.ofList text))
  | some literal =>
      match value? literal with
      | some value => .ok value
      | none => .error (.valueOutOfRange line (String.ofList text))

theorem spell_eq_ok_iff : spell value? line text = .ok value ↔ Spells value? text value := by
  rw [spell, Spells]
  cases Literal.ofText? text with
  | none => simp
  | some literal => cases found : value? literal <;> simp [found]

theorem spell_eq_error_iff :
    spell value? line text = .error error ↔ Misspells value? line text error := by
  rw [spell]
  constructor
  · intro refused
    split at refused
    · rename_i noNumber
      cases refused
      exact .unresolved noNumber
    · rename_i literal isNumber
      split at refused
      · cases refused
      · rename_i outside
        cases refused
        exact .outOfRange isNumber outside
  · intro misspells
    cases misspells with
    | unresolved noNumber => rw [noNumber]
    | outOfRange isNumber outside =>
        rw [isNumber]
        dsimp only
        rw [outside]

end Grammar

open Grammar

namespace Statement

variable {statement : Statement} {text : List Char}

theorem literal_eq_spell (statement : Statement) (text : List Char) :
    statement.literal text = spell Literal.operand? statement.line text := by
  rw [literal, spell]
  cases Literal.ofText? text with
  | none => rfl
  | some literal => cases found : literal.operand? <;> simp [found]

/-- A number with a bound is a number that has a value within it. -/
theorem bounded_eq_spell (statement : Statement) (text : List Char) (within : Operand → Prop)
    [DecidablePred within] :
    (do
      let value ← statement.literal text
      if within value then return value
      else .error (.valueOutOfRange statement.line (String.ofList text))) =
        spell (fun literal => literal.operand?.filter (within ·)) statement.line text := by
  rw [literal_eq_spell, spell, spell]
  cases Literal.ofText? text with
  | none => rfl
  | some literal =>
      cases found : literal.operand? with
      | none => simp [bind, Except.bind, found]
      | some value =>
          by_cases inside : within value
          · simp [bind, Except.bind, found, inside, Option.filter_some, pure, Except.pure]
          · simp [bind, Except.bind, found, inside, Option.filter_some]

theorem nibble_eq_spell (statement : Statement) (text : List Char) :
    statement.nibble text =
      (spell (value? .dataWord) statement.line text).map (BitVec.setWidth 8) := by
  have bounded : _ = spell (value? .dataWord) statement.line text :=
    bounded_eq_spell statement text (·.toNat < 16)
  rw [← bounded, nibble]
  cases statement.literal text with
  | error error => rfl
  | ok value =>
      by_cases small : value.toNat < 16 <;>
        simp [bind, Except.bind, pure, Except.pure, small, Except.map]

end Statement

/-! ## Operands -/

section Operands

variable {labels : LabelTable} {base line : Nat} {form : OperandForm} {text : List Char}
  {operand : Operand} {error : AssemblyError}

/-- The names that a table binds. -/
def LabelTable.Binds (labels : LabelTable) (name : List Char) (index : Nat) : Prop :=
  labels.find? (String.ofList name) = some index

/-- Where the label lies that a text is in an operand of some form, if it is one. -/
def Grammar.address? (labels : LabelTable) (base : Nat) (form : OperandForm) (text : List Char) :
    Option Nat :=
  (origin? base form).bind fun origin =>
    (labels.find? (String.ofList text)).map fun index => origin + index

/-- What a single operand of some form stands for. -/
def Grammar.readOne (labels : LabelTable) (base line : Nat) (form : OperandForm)
    (text : List Char) : Except AssemblyError Operand :=
  match address? labels base form text with
  | some address =>
      if address < operandLimit then .ok (BitVec.ofNat 32 address)
      else .error (.valueOutOfRange line (toString address))
  | none => spell (value? form) line text

theorem Statement.operandField_eq_readOne {statement : Statement} (single : form.arity = 1)
    (operands : statement.operands = [text]) :
    statement.operandField labels base form = readOne labels base statement.line form text := by
  have sole : statement.soleOperand = .ok text := by
    rw [soleOperand, operands]
  have resolved {origin : Nat} (takes : origin? base form = some origin)
      (isValue : value? form = Literal.operand?) :
      statement.resolve labels origin text = readOne labels base statement.line form text := by
    rw [resolve, readOne, address?, takes, isValue, literal_eq_spell]
    cases labels.find? (String.ofList text) <;> rfl
  have plain : (fun literal : Literal => literal.operand?.filter fun _ => true) =
      Literal.operand? := by
    funext literal
    cases literal.operand? <;> rfl
  cases form with
  | none | dataWord => cases single
  | relative =>
      rw [operandField, sole]
      exact resolved rfl plain
  | absolute =>
      rw [operandField, sole]
      exact resolved rfl plain
  | count =>
      rw [operandField, sole]
      show statement.literal text = spell (value? .count) statement.line text
      rw [literal_eq_spell, show value? .count = Literal.operand? from plain]
  | repetitions =>
      rw [operandField, sole]
      exact bounded_eq_spell statement text (·.toNat ≤ 65536)

theorem Grammar.address?_eq_some_iff {address : Nat} :
    address? labels base form text = some address ↔
      ∃ origin index, origin? base form = some origin ∧ labels.Binds text index ∧
        address = origin + index := by
  rw [address?, Option.bind_eq_some_iff]
  simp only [Option.map_eq_some_iff, LabelTable.Binds]
  constructor
  · rintro ⟨origin, takes, index, isBound, rfl⟩
    exact ⟨origin, index, takes, isBound, rfl⟩
  · rintro ⟨origin, index, takes, isBound, rfl⟩
    exact ⟨origin, takes, index, isBound, rfl⟩

theorem Grammar.address?_eq_none_iff :
    address? labels base form text = none ↔
      (origin? base form ≠ none → ∀ index, ¬labels.Binds text index) := by
  rw [Option.eq_none_iff_forall_ne_some]
  constructor
  · intro absent takes index isBound
    obtain ⟨origin, isOrigin⟩ := Option.ne_none_iff_exists'.mp takes
    exact absent _ (address?_eq_some_iff.mpr ⟨origin, index, isOrigin, isBound, rfl⟩)
  · intro unbound address found
    obtain ⟨origin, index, takes, isBound, -⟩ := address?_eq_some_iff.mp found
    exact unbound (by simp [takes]) index isBound

theorem Grammar.readOne_eq_ok_iff (single : form.arity = 1) :
    readOne labels base line form text = .ok operand ↔
      Reads labels.Binds base form [text] operand := by
  rw [readOne]
  constructor
  · intro read
    split at read
    · rename_i found
      obtain ⟨origin, index, takes, isBound, rfl⟩ := address?_eq_some_iff.mp found
      split at read
      · rename_i fits
        cases read
        exact .label takes isBound fits
      · cases read
    · rename_i absent
      exact .number single (address?_eq_none_iff.mp absent) (spell_eq_ok_iff.mp read)
  · intro reads
    cases reads with
    | label takes isBound fits =>
        rw [address?_eq_some_iff.mpr ⟨_, _, takes, isBound, rfl⟩]
        exact if_pos fits
    | number _ unbound spells =>
        rw [address?_eq_none_iff.mpr unbound]
        exact spell_eq_ok_iff.mpr spells

theorem Grammar.readOne_eq_error_iff (single : form.arity = 1) :
    readOne labels base line form text = .error error ↔
      Misreads labels.Binds base line form [text] error := by
  rw [readOne]
  constructor
  · intro refused
    split at refused
    · rename_i found
      obtain ⟨origin, index, takes, isBound, rfl⟩ := address?_eq_some_iff.mp found
      split at refused
      · cases refused
      · rename_i large
        cases refused
        exact .label takes isBound (Nat.le_of_not_lt large)
    · rename_i absent
      exact .number single (address?_eq_none_iff.mp absent) (spell_eq_error_iff.mp refused)
  · intro misreads
    cases misreads with
    | label takes isBound large =>
        rw [address?_eq_some_iff.mpr ⟨_, _, takes, isBound, rfl⟩]
        exact if_neg (Nat.not_lt_of_le large)
    | number _ unbound misspells =>
        rw [address?_eq_none_iff.mpr unbound]
        exact spell_eq_error_iff.mpr misspells

/-- Bank and word of a data word are small numbers. -/
theorem Grammar.toNat_lt_of_spells (spells : Spells (value? .dataWord) text operand) :
    operand.toNat < 16 := by
  obtain ⟨literal, -, isValue⟩ := spells
  obtain ⟨-, small⟩ := Option.filter_eq_some_iff.mp isValue
  exact of_decide_eq_true small

/-- What two operands of a data word stand for. -/
def Grammar.readTwo (line : Nat) (bank word : List Char) : Except AssemblyError Operand := do
  let bankValue ← spell (value? .dataWord) line bank
  let wordValue ← spell (value? .dataWord) line word
  return BitVec.ofNat 32 (16 * bankValue.toNat + wordValue.toNat)

theorem DataAddress.toOperand_ofNibbles {bank word : Operand} (bankSmall : bank.toNat < 16)
    (wordSmall : word.toNat < 16) :
    (ofNibbles (bank.setWidth 8) (word.setWidth 8)).toOperand =
      BitVec.ofNat 32 (16 * bank.toNat + word.toNat) := by
  have bankValue : (bank.setWidth 8).toNat = bank.toNat := by
    rw [BitVec.toNat_setWidth]
    omega
  have wordValue : (word.setWidth 8).toNat = word.toNat := by
    rw [BitVec.toNat_setWidth]
    omega
  have narrow : DataAddress.Narrow ⟨bank.setWidth 8, word.setWidth 8⟩ :=
    ⟨by rwa [bankValue], by rwa [wordValue]⟩
  apply BitVec.eq_of_toNat_eq
  rw [narrow.ofNibbles_eq, narrow.toNat_toOperand, bankValue, wordValue, BitVec.toNat_ofNat]
  omega

theorem Statement.operandField_eq_readTwo {statement : Statement} {bank word : List Char}
    (operands : statement.operands = [bank, word]) :
    statement.operandField labels base .dataWord = readTwo statement.line bank word := by
  rw [operandField, dataAddress, operands]
  dsimp only
  rw [nibble_eq_spell, nibble_eq_spell, readTwo]
  cases ofBank : spell (value? .dataWord) statement.line bank with
  | error error => rfl
  | ok bankValue =>
      cases ofWord : spell (value? .dataWord) statement.line word with
      | error error => rfl
      | ok wordValue =>
          have bankSmall := toNat_lt_of_spells (spell_eq_ok_iff.mp ofBank)
          have wordSmall := toNat_lt_of_spells (spell_eq_ok_iff.mp ofWord)
          exact congrArg Except.ok (DataAddress.toOperand_ofNibbles bankSmall wordSmall)

theorem Grammar.readTwo_eq_ok_iff {bank word : List Char} :
    readTwo line bank word = .ok operand ↔
      Reads labels.Binds base .dataWord [bank, word] operand := by
  rw [readTwo]
  constructor
  · intro read
    cases ofBank : spell (value? .dataWord) line bank with
    | error error =>
        rw [ofBank] at read
        cases read
    | ok bankValue =>
        cases ofWord : spell (value? .dataWord) line word with
        | error error =>
            rw [ofBank, ofWord] at read
            cases read
        | ok wordValue =>
            rw [ofBank, ofWord] at read
            cases read
            exact .dataWord (spell_eq_ok_iff.mp ofBank) (spell_eq_ok_iff.mp ofWord)
  · rintro ⟨⟩
    rename_i bankValue wordValue spellsBank spellsWord
    rw [spell_eq_ok_iff.mpr spellsBank, spell_eq_ok_iff.mpr spellsWord]
    rfl

theorem Grammar.readTwo_eq_error_iff {bank word : List Char} :
    readTwo line bank word = .error error ↔
      Misreads labels.Binds base line .dataWord [bank, word] error := by
  rw [readTwo]
  constructor
  · intro refused
    cases ofBank : spell (value? .dataWord) line bank with
    | error refusal =>
        rw [ofBank] at refused
        cases refused
        exact .bank (spell_eq_error_iff.mp ofBank)
    | ok bankValue =>
        cases ofWord : spell (value? .dataWord) line word with
        | error refusal =>
            rw [ofBank, ofWord] at refused
            cases refused
            exact .word (spell_eq_ok_iff.mp ofBank) (spell_eq_error_iff.mp ofWord)
        | ok wordValue =>
            rw [ofBank, ofWord] at refused
            cases refused
  · intro misreads
    cases misreads with
    | bank misspells =>
        rw [spell_eq_error_iff.mpr misspells]
        rfl
    | word spellsBank misspells =>
        rw [spell_eq_ok_iff.mpr spellsBank, spell_eq_error_iff.mpr misspells]
        rfl

end Operands

/-! ## Operand fields -/

section OperandFields

variable {bound : List Char → Nat → Prop} {base line : Nat} {form : OperandForm}
  {operands : List (List Char)} {operand : Operand} {error : AssemblyError}

theorem Grammar.arity_of_origin {origin : Nat} (takes : origin? base form = some origin) :
    form.arity = 1 := by
  cases form with
  | relative | absolute => rfl
  | none | count | repetitions | dataWord => cases takes

theorem Grammar.Reads.length (reads : Reads bound base form operands operand) :
    operands.length = form.arity := by
  cases reads with
  | none | dataWord => rfl
  | label takes => exact (arity_of_origin takes).symm
  | number single => exact single.symm

theorem Grammar.Misreads.length (misreads : Misreads bound base line form operands error) :
    operands.length = form.arity := by
  cases misreads with
  | bank | word => rfl
  | label takes => exact (arity_of_origin takes).symm
  | number single => exact single.symm

namespace Statement

variable {statement : Statement} {labels : LabelTable}

/-- An operand that is missing counts before what is wrong with those that are there. -/
theorem operandField_of_short (short : statement.operands.length < form.arity) :
    statement.operandField labels base form = .error statement.missing := by
  have none_ {text : List Char} {rest : List (List Char)} (single : form.arity = 1) :
      statement.operands ≠ text :: rest := by
    intro operands
    rw [operands, single] at short
    simp at short
  cases form with
  | none => exact absurd short (Nat.not_lt_zero _)
  | relative | absolute | count | repetitions =>
      have sole : statement.soleOperand = .error statement.missing := by
        rw [soleOperand]
        split
        · rename_i operands
          exact absurd operands (none_ rfl)
        · rfl
      rw [operandField, sole]
      rfl
  | dataWord =>
      rw [operandField, dataAddress]
      split
      · rename_i operands
        rw [operands] at short
        exact absurd short (Nat.lt_irrefl 2)
      · rfl

/-- Operands that are all there, in the ways in which they can be. -/
theorem operands_of_length (whole : statement.operands.length = form.arity) :
    (form = .none ∧ statement.operands = []) ∨
      (form.arity = 1 ∧ ∃ text, statement.operands = [text]) ∨
      (form = .dataWord ∧ ∃ bank word, statement.operands = [bank, word]) := by
  cases form with
  | none => exact .inl ⟨rfl, List.length_eq_zero_iff.mp whole⟩
  | relative | absolute | count | repetitions =>
      exact .inr (.inl ⟨rfl, List.length_eq_one_iff.mp whole⟩)
  | dataWord => exact .inr (.inr ⟨rfl, List.length_eq_two.mp whole⟩)

theorem operandField_eq_ok_iff (bounded : statement.operands.length ≤ form.arity) :
    statement.operandField labels base form = .ok operand ↔
      Reads labels.Binds base form statement.operands operand := by
  rcases Nat.lt_or_eq_of_le bounded with short | whole
  · rw [operandField_of_short short]
    constructor
    · rintro ⟨⟩
    · intro reads
      exact absurd reads.length (Nat.ne_of_lt short)
  · rcases operands_of_length whole with ⟨rfl, operands⟩ | ⟨single, text, operands⟩ |
      ⟨rfl, bank, word, operands⟩
    · rw [operands, operandField, Except.ok.injEq]
      constructor
      · rintro rfl
        exact .none
      · rintro ⟨⟩
        rfl
    · rw [operandField_eq_readOne single operands, operands, readOne_eq_ok_iff single]
    · rw [operandField_eq_readTwo operands, operands, readTwo_eq_ok_iff]

theorem operandField_eq_error_iff (bounded : statement.operands.length ≤ form.arity) :
    statement.operandField labels base form = .error error ↔
      (statement.operands.length < form.arity ∧ error = statement.missing) ∨
        Misreads labels.Binds base statement.line form statement.operands error := by
  rcases Nat.lt_or_eq_of_le bounded with short | whole
  · rw [operandField_of_short short, Except.error.injEq]
    constructor
    · rintro rfl
      exact .inl ⟨short, rfl⟩
    · rintro (⟨-, rfl⟩ | misreads)
      · rfl
      · exact absurd misreads.length (Nat.ne_of_lt short)
  · rw [whole, or_iff_right (fun ⟨less, _⟩ => Nat.lt_irrefl _ less)]
    rcases operands_of_length whole with ⟨rfl, operands⟩ | ⟨single, text, operands⟩ |
      ⟨rfl, bank, word, operands⟩
    · rw [operands, operandField]
      constructor
      · rintro ⟨⟩
      · rintro ⟨⟩
    · rw [operandField_eq_readOne single operands, operands, readOne_eq_error_iff single]
    · rw [operandField_eq_readTwo operands, operands, readTwo_eq_error_iff]

end Statement

end OperandFields

/-! ## Statements -/

namespace Grammar

variable {bound : List Char → Nat → Prop} {base line : Nat} {opcode : Opcode}
  {written : List Char × List (List Char)} {word : Word} {error : AssemblyError}

theorem encodes_instruction_iff
    (asked : Directive.ofMnemonic? written.1 = some (.instruction opcode)) :
    Encodes bound base written word ↔
      ∃ operand, Reads bound base opcode.operandForm written.2 operand ∧
        word = Word.ofParts opcode.byte operand := by
  constructor
  · intro encodes
    cases encodes with
    | instruction same reads =>
        cases asked.symm.trans same
        exact ⟨_, reads, rfl⟩
    | number same => cases asked.symm.trans same
  · rintro ⟨operand, reads, rfl⟩
    exact .instruction asked reads

theorem encodes_number_iff (asked : Directive.ofMnemonic? written.1 = some .word) :
    Encodes bound base written word ↔
      ∃ text, written.2 = [text] ∧ Spells Literal.word? text word := by
  constructor
  · intro encodes
    cases encodes with
    | instruction same => cases asked.symm.trans same
    | number _ spells => exact ⟨_, rfl, spells⟩
  · obtain ⟨mnemonic, operands⟩ := written
    rintro ⟨text, rfl, spells⟩
    exact .number asked spells

theorem faults_instruction_iff
    (asked : Directive.ofMnemonic? written.1 = some (.instruction opcode)) :
    Faults bound base line written error ↔
      (written.2.length < opcode.operandForm.arity ∧
        error = .missingOperand line (String.ofList written.1)) ∨
      Misreads bound base line opcode.operandForm written.2 error := by
  constructor
  · intro faults
    cases faults with
    | missing same short =>
        cases asked.symm.trans same
        exact .inl ⟨short, rfl⟩
    | operand same misreads =>
        cases asked.symm.trans same
        exact .inr misreads
    | number same => cases asked.symm.trans same
  · rintro (⟨short, rfl⟩ | misreads)
    · exact .missing asked short
    · exact .operand asked misreads

theorem faults_number_iff (asked : Directive.ofMnemonic? written.1 = some .word) :
    Faults bound base line written error ↔
      (written.2 = [] ∧ error = .missingOperand line (String.ofList written.1)) ∨
      ∃ text, written.2 = [text] ∧ Misspells Literal.word? line text error := by
  constructor
  · intro faults
    cases faults with
    | missing same short =>
        cases asked.symm.trans same
        exact .inl ⟨List.eq_nil_of_length_eq_zero (Nat.lt_one_iff.mp short), rfl⟩
    | operand same => cases asked.symm.trans same
    | number _ misspells => exact .inr ⟨_, rfl, misspells⟩
  · obtain ⟨mnemonic, operands⟩ := written
    rintro (⟨rfl, rfl⟩ | ⟨text, rfl, misspells⟩)
    · exact .missing asked Nat.one_pos
    · exact .number asked misspells

end Grammar

namespace Statement

variable {statement : Statement} {labels : LabelTable} {base : Nat} {word : Word}
  {error : AssemblyError}

/-- The mnemonic of a statement asks for its directive. -/
theorem ofMnemonic_written (statement : Statement) :
    Directive.ofMnemonic? statement.written.1 = some statement.directive :=
  Directive.ofMnemonic_mnemonic statement.directive

theorem missing_eq (statement : Statement) :
    statement.missing = .missingOperand statement.line (String.ofList statement.written.1) := by
  rw [missing, written, String.ofList_toList]

/-- A `DAT` without its number is refused, and any other one is what its number is. -/
theorem number_eq (isWord : statement.directive = .word) :
    (statement.operands = [] ∧ statement.number = .error statement.missing) ∨
      ∃ text, statement.operands = [text] ∧
        statement.number = spell Literal.word? statement.line text := by
  have bounded := statement.length_operands
  rw [isWord] at bounded
  rcases operands : statement.operands with _ | ⟨text, rest⟩
  · refine .inl ⟨rfl, ?_⟩
    rw [number, soleOperand, operands]
    rfl
  · rw [operands] at bounded
    have alone : rest = [] :=
      List.eq_nil_of_length_eq_zero (Nat.le_zero.mp (Nat.le_of_succ_le_succ bounded))
    refine .inr ⟨text, by rw [alone], ?_⟩
    have sole : statement.soleOperand = .ok text := by
      rw [soleOperand, operands]
    rw [number, sole, spell]
    cases isNumber : Literal.ofText? text with
    | none => simp [bind, Except.bind, isNumber]
    | some literal =>
        cases found : literal.word? <;>
          simp [bind, Except.bind, pure, Except.pure, isNumber, found]

/-- A statement is encoded as the word that it stands for. -/
theorem encode_eq_ok_iff :
    statement.encode labels base = .ok word ↔ Encodes labels.Binds base statement.written word := by
  have asked := statement.ofMnemonic_written
  rw [encode]
  cases isDirective : statement.directive with
  | word =>
      rw [isDirective] at asked
      rw [encodes_number_iff asked]
      show statement.number = .ok word ↔ ∃ text, statement.operands = [text] ∧ _
      rcases number_eq isDirective with ⟨operands, refused⟩ | ⟨text, operands, spelled⟩
      · rw [refused, operands]
        constructor
        · rintro ⟨⟩
        · rintro ⟨text, ⟨⟩, -⟩
      · simp only [spelled, operands, List.singleton_inj, exists_eq_left', spell_eq_ok_iff]
  | instruction opcode =>
      have bounded := statement.length_operands
      rw [isDirective] at asked bounded
      rw [encodes_instruction_iff asked]
      simp only [← operandField_eq_ok_iff bounded, written]
      cases statement.operandField labels base opcode.operandForm <;> simp [Except.map, eq_comm]

/-- A statement is refused for what keeps it from standing for a word. -/
theorem encode_eq_error_iff :
    statement.encode labels base = .error error ↔
      Faults labels.Binds base statement.line statement.written error := by
  have asked := statement.ofMnemonic_written
  rw [encode]
  cases isDirective : statement.directive with
  | word =>
      rw [isDirective] at asked
      rw [faults_number_iff asked, ← missing_eq]
      show statement.number = .error error ↔
        (statement.operands = [] ∧ _) ∨ ∃ text, statement.operands = [text] ∧ _
      rcases number_eq isDirective with ⟨operands, refused⟩ | ⟨text, operands, spelled⟩
      · rw [refused, operands]
        simp [eq_comm]
      · simp only [spelled, operands, List.singleton_inj, exists_eq_left', spell_eq_error_iff]
        simp
  | instruction opcode =>
      have bounded := statement.length_operands
      rw [isDirective] at asked bounded
      rw [faults_instruction_iff asked, ← missing_eq]
      simp only [written, ← operandField_eq_error_iff bounded]
      cases statement.operandField labels base opcode.operandForm <;> simp [Except.map]

end Statement

/-! ## The pass as a whole -/

/-- A mapping fails because of the first item on which it does. -/
theorem mapM_eq_error_iff {α β ε : Type} {change : α → Except ε β} {items : List α} {error : ε} :
    items.mapM change = .error error ↔
      ∃ front item rear results, items = front ++ item :: rear ∧
        List.Forall₂ (fun item result => change item = .ok result) front results ∧
        change item = .error error := by
  constructor
  · intro mapped
    induction items with
    | nil => cases mapped
    | cons first rest ih =>
        rw [List.mapM_cons] at mapped
        cases changed : change first with
        | error refusal =>
            rw [changed] at mapped
            cases mapped
            exact ⟨[], first, rest, [], rfl, .nil, changed⟩
        | ok result =>
            rw [changed] at mapped
            cases others : rest.mapM change with
            | ok results =>
                rw [others] at mapped
                cases mapped
            | error refusal =>
                rw [others] at mapped
                cases mapped
                obtain ⟨front, item, rear, results, rfl, each, fails⟩ := ih others
                exact ⟨first :: front, item, rear, result :: results, rfl, .cons changed each,
                  fails⟩
  · rintro ⟨front, item, rear, results, rfl, each, fails⟩
    rw [List.mapM_append, mapM_eq_ok_iff.mpr each, List.mapM_cons, fails]
    rfl

/-- An outline is not placed because of its size or, if it fits, because of the first
statement that is refused. -/
theorem Outline.place_eq_error_iff {outline : Outline} {capacity : Nat} {error : AssemblyError} :
    outline.place capacity = .error error ↔
      (capacity < outline.size ∧ error = .programTooLarge outline.size capacity) ∨
      (outline.size ≤ capacity ∧ ∃ front statement rear words,
        outline.statements.toList = front ++ statement :: rear ∧
        List.Forall₂ (fun statement word =>
          Statement.encode statement outline.labels (capacity - outline.size) = .ok word)
          front words ∧
        statement.encode outline.labels (capacity - outline.size) = .error error) := by
  rw [place, ← mapM_eq_error_iff]
  by_cases large : capacity < outline.size
  · simp [large, Nat.not_le_of_lt large, eq_comm]
  · rw [if_neg large]
    dsimp only
    cases outline.statements.toList.mapM fun statement =>
        statement.encode outline.labels (capacity - outline.size) <;>
      simp [large, Nat.le_of_not_lt large, bind, Except.bind, pure, Except.pure]

end BitSerial
