import BitSerial.Proofs.Assembly.Acceptance
import BitSerial.Proofs.Assembly.NumberTexts

/-!
# Numbers as operands

An operand that may be an integer is one if its text in upper case means one.  It becomes
that integer if it fits, and the source is refused if it does not, or if the text begins
like a number and means none, or if it begins otherwise and is no label.
-/

namespace BitSerial.Grammar

open Literal (BeginsInt Capital FitsCount FitsOperand MeansInt StandsFor)
open SourceLine (parse statements)
open Text (upper)

/-! ## Texts as literals -/

section

variable {α : Type} {value? : Literal → Option α} {fits : Int → Prop} {item : Int → α}
  {number : Nat} {text : List Char} {value : Int}

/-- Literals have a value where the integers that they stand for fit. -/
structure Values (value? : Literal → Option α) (fits : Int → Prop) (item : Int → α) : Prop where
  inside : ∀ {literal : Literal} {value : Int}, literal.StandsFor value → fits value →
    value? literal = some (item value)
  outside : ∀ {literal : Literal} {value : Int}, literal.StandsFor value → ¬fits value →
    value? literal = none
  valueless : ∀ negative, value? ⟨negative, none⟩ = none

theorem values_operand : Values Literal.operand? FitsOperand (BitVec.ofInt 32) where
  inside := StandsFor.operand?_of_fits
  outside := StandsFor.operand?_of_not_fits
  valueless _ := rfl

theorem values_word : Values Literal.word? FitsCount (BitVec.ofInt 40) where
  inside := StandsFor.word?_of_fits
  outside := StandsFor.word?_of_not_fits
  valueless _ := rfl

theorem Values.spells (values : Values value? fits item) (capital : Capital text)
    (means : MeansInt text value) (inside : fits value) : Spells value? text (item value) := by
  obtain ⟨literal, isNumber, standsFor⟩ := Literal.exists_standsFor capital means
  exact ⟨literal, isNumber, values.inside standsFor inside⟩

theorem Values.misspells_of_not_fits (values : Values value? fits item) (capital : Capital text)
    (means : MeansInt text value) (outside : ¬fits value) :
    Misspells value? number text (.valueOutOfRange number (String.ofList text)) := by
  obtain ⟨literal, isNumber, standsFor⟩ := Literal.exists_standsFor capital means
  exact .outOfRange isNumber (values.outside standsFor outside)

theorem Values.misspells_of_begins (values : Values value? fits item) (begins : BeginsInt text)
    (meaningless : ∀ value, ¬MeansInt text value) :
    Misspells value? number text (.valueOutOfRange number (String.ofList text)) := by
  obtain ⟨negative, isNumber⟩ := Literal.exists_of_begins begins meaningless
  exact .outOfRange isNumber (values.valueless negative)

end

/-! ## Statements with one operand -/

/-- A statement of a source stands for a word. -/
abbrev EncodesIn (geometry : Geometry) (source : String) :
    List Char × List (List Char) → Word → Prop :=
  Encodes (Binds (Text.lines source.toList))
    (geometry.mainWords - (statements (Text.lines source.toList)).length)

/-- Why a statement of a source stands for none. -/
abbrev FaultsIn (geometry : Geometry) (source : String) (number : Nat) :
    List Char × List (List Char) → AssemblyError → Prop :=
  Faults (Binds (Text.lines source.toList))
    (geometry.mainWords - (statements (Text.lines source.toList)).length) number

/-- A statement with one operand stands on a line of a well formed source, and every
statement before it stands for a word. -/
structure Reached (geometry : Geometry) (source : String) (before : List (List Char))
    (line : List Char) (behind : List (List Char)) (mnemonic text : List Char) : Prop where
  valid : geometry.Valid
  split : Text.lines source.toList = before ++ line :: behind
  wellFormed : WellFormed geometry.mainWords (Text.lines source.toList)
  encoded : ∀ written ∈ statements before, ∃ word, EncodesIn geometry source written word
  stated : (parse line).statement = some (mnemonic, [upper text])

/-- The statement behind some lines becomes a word: every program that the source is
assembled to has it there, and there is one if the statements further behind stand for
words too. -/
structure Becomes (geometry : Geometry) (source : String) (before behind : List (List Char))
    (word : Word) : Prop where
  placed : ∀ program, Program.assemble geometry source = .ok program →
    program.words[(statements before).length]? = some word
  assembled : (∀ written ∈ statements behind, ∃ word, EncodesIn geometry source written word) →
    ∃ program, Program.assemble geometry source = .ok program

/-- What is paired off with a list is parted where the list is. -/
theorem forall₂_append_cons_iff {α β : Type} {relates : α → β → Prop} {front rear : List α}
    {item : α} {others : List β} :
    List.Forall₂ relates (front ++ item :: rear) others ↔ ∃ frontOthers other rearOthers,
      others = frontOthers ++ other :: rearOthers ∧ List.Forall₂ relates front frontOthers ∧
        relates item other ∧ List.Forall₂ relates rear rearOthers := by
  induction front generalizing others with
  | nil =>
      rw [List.nil_append, List.forall₂_cons_left_iff]
      constructor
      · rintro ⟨other, rearOthers, related, rest, rfl⟩
        exact ⟨[], other, rearOthers, rfl, .nil, related, rest⟩
      · rintro ⟨_, other, rearOthers, rfl, ⟨⟩, related, rest⟩
        exact ⟨other, rearOthers, related, rest, rfl⟩
  | cons first front ih =>
      rw [List.cons_append, List.forall₂_cons_left_iff]
      constructor
      · rintro ⟨firstOther, tail, related, rest, rfl⟩
        obtain ⟨frontOthers, other, rearOthers, rfl, each, paired, behind⟩ := ih.mp rest
        exact ⟨firstOther :: frontOthers, other, rearOthers, rfl, .cons related each, paired,
          behind⟩
      · rintro ⟨_, other, rearOthers, rfl, each, paired, behind⟩
        cases each with
        | @cons _ firstOther _ frontOthers related each =>
            exact ⟨firstOther, _, related, ih.mpr ⟨_, _, _, rfl, each, paired, behind⟩, rfl⟩

section

variable {geometry : Geometry} {source : String} {before behind : List (List Char)}
  {line mnemonic text : List Char} {word : Word} {error : AssemblyError}

theorem Reached.statements_eq (reached : Reached geometry source before line behind mnemonic text) :
    statements (Text.lines source.toList) =
      statements before ++ (mnemonic, [upper text]) :: statements behind := by
  rw [reached.split, ← List.singleton_append, statements_append, statements_append,
    statements_singleton, reached.stated]
  rfl

/-- The word that a statement stands for is the one in the program, since the program with
it there is what the source stands for as well. -/
theorem Reached.becomes (reached : Reached geometry source before line behind mnemonic text)
    (encodes : EncodesIn geometry source (mnemonic, [upper text]) word) :
    Becomes geometry source before behind word where
  placed program assembled := by
    have yields := (Program.assemble_eq_ok_iff_yields reached.valid).mp assembled
    have words : List.Forall₂ (EncodesIn geometry source) (statements (Text.lines source.toList))
        program.words := by
      rw [EncodesIn, ← yields.base]
      exact yields.words
    rw [reached.statements_eq] at words
    obtain ⟨front, other, rear, same, each, -, rest⟩ := forall₂_append_cons_iff.mp words
    have also : Yields geometry.mainWords (Text.lines source.toList)
        { program with words := front ++ word :: rear } := by
      refine ⟨yields.wellFormed, yields.base, ?_, yields.labels⟩
      have replaced := forall₂_append_cons_iff.mpr ⟨front, word, rear, rfl, each, encodes, rest⟩
      rw [← reached.statements_eq, EncodesIn, ← yields.base] at replaced
      exact replaced
    have again := (Program.assemble_eq_ok_iff_yields reached.valid).mpr also
    have isProgram := Except.ok.inj (assembled.symm.trans again)
    rw [isProgram, each.length_eq, List.getElem?_append_right (Nat.le_refl _), Nat.sub_self]
    rfl
  assembled rest := by
    simp only [Program.assemble_eq_ok_iff_yields reached.valid]
    refine Program.exists_yields_iff.mpr ⟨reached.wellFormed, ?_⟩
    intro written member
    rw [reached.statements_eq] at member
    rcases List.mem_append.mp member with earlier | later
    · exact reached.encoded written earlier
    · rcases List.mem_cons.mp later with rfl | later
      · exact ⟨word, encodes⟩
      · exact rest written later

theorem Reached.refused (reached : Reached geometry source before line behind mnemonic text)
    (faults : FaultsIn geometry source (before.length + 1) (mnemonic, [upper text]) error) :
    Program.assemble geometry source = .error error := by
  obtain ⟨words, each⟩ := exists_forall₂_iff.mpr reached.encoded
  exact (Program.assemble_eq_error_iff reached.valid).mpr
    (.statement reached.wellFormed reached.split reached.stated each faults)

/-! ## Operands that are integers -/

/-- An operand is taken for an integer: what the statement becomes, for the integers that
fit, and for what the source is refused otherwise. -/
structure TakesInteger (geometry : Geometry) (source : String) (before behind : List (List Char))
    (text : List Char) (fits : Int → Prop) (item : Int → Word) : Prop where
  inside : ∀ value, MeansInt (upper text) value → fits value →
    Becomes geometry source before behind (item value)
  outside : ∀ value, MeansInt (upper text) value → ¬fits value →
    Program.assemble geometry source =
      .error (.valueOutOfRange (before.length + 1) (String.ofList (upper text)))
  meaningless : BeginsInt text → (∀ value, ¬MeansInt (upper text) value) →
    Program.assemble geometry source =
      .error (.valueOutOfRange (before.length + 1) (String.ofList (upper text)))
  otherwise : ¬BeginsInt text →
    Program.assemble geometry source =
      .error (.unresolvedOperand (before.length + 1) (String.ofList (upper text)))

/-- It is enough to know when the statement stands for a word and why it stands for none. -/
theorem Reached.takesInteger {α : Type} {value? : Literal → Option α} {fits : Int → Prop}
    {item : Int → α} (reached : Reached geometry source before line behind mnemonic text)
    (values : Values value? fits item) (word : α → Word)
    (encodes : ∀ value, Spells value? (upper text) value →
      EncodesIn geometry source (mnemonic, [upper text]) (word value))
    (faults : ∀ error, Misspells value? (before.length + 1) (upper text) error →
      FaultsIn geometry source (before.length + 1) (mnemonic, [upper text]) error) :
    TakesInteger geometry source before behind text fits fun value => word (item value) where
  inside _ means inside :=
    reached.becomes (encodes _ (values.spells (Literal.capital_upper text) means inside))
  outside _ means outside :=
    reached.refused
      (faults _ (values.misspells_of_not_fits (Literal.capital_upper text) means outside))
  meaningless begins meaningless :=
    reached.refused
      (faults _ (values.misspells_of_begins (Literal.beginsInt_upper.mpr begins) meaningless))
  otherwise notNumber :=
    reached.refused (faults _ (.unresolved
      (Literal.ofText?_of_not_begins (mt Literal.beginsInt_upper.mp notNumber))))

/-- The operand of such a form is an integer that only the size of operands bounds. -/
def IsInteger (form : OperandForm) : Prop :=
  form = .relative ∨ form = .absolute ∨ form = .count

theorem values_of_isInteger {form : OperandForm} (integer : IsInteger form) :
    Values (value? form) FitsOperand (BitVec.ofInt 32) := by
  have same : value? form = Literal.operand? := by
    funext literal
    rcases integer with rfl | rfl | rfl
    all_goals
      rw [value?]
      cases literal.operand? with
      | none => rfl
      | some operand => rfl
  rw [same]
  exact values_operand

/-- In an instruction such an operand is an integer unless it is a label. -/
theorem Reached.takesInteger_of_instruction {opcode : Opcode}
    (reached : Reached geometry source before line behind mnemonic text)
    (asked : Directive.ofMnemonic? mnemonic = some (.instruction opcode))
    (integer : IsInteger opcode.operandForm)
    (unbound : opcode.operandForm ≠ .count →
      ∀ index, ¬Binds (Text.lines source.toList) (upper text) index) :
    TakesInteger geometry source before behind text FitsOperand fun value =>
      Word.ofParts opcode.byte (BitVec.ofInt 32 value) := by
  have single : opcode.operandForm.arity = 1 := by
    rcases integer with form | form | form
    all_goals
      rw [form]
      rfl
  have unnamed (base : Nat) : origin? base opcode.operandForm ≠ none →
      ∀ index, ¬Binds (Text.lines source.toList) (upper text) index := by
    intro takes
    apply unbound
    intro isCount
    rw [isCount] at takes
    exact takes rfl
  exact reached.takesInteger (values_of_isInteger integer) (Word.ofParts opcode.byte)
    (fun _ spells => .instruction asked (.number single (unnamed _) spells))
    (fun _ misspells => .operand asked (.number single (unnamed _) misspells))

theorem Reached.takesInteger_of_word
    (reached : Reached geometry source before line behind mnemonic text)
    (asked : Directive.ofMnemonic? mnemonic = some .word) :
    TakesInteger geometry source before behind text FitsCount (BitVec.ofInt 40) :=
  reached.takesInteger values_word id (fun _ spells => .number asked spells)
    (fun _ misspells => .number asked misspells)

/-- Every number that is written means its value.  An operand counts in upper case, in which
a number of any letters stays the number that it is.  Where an instruction takes an integer
and the operand is no label, it becomes the integer modulo 2^32 if that is at least -2^31 and
below 2^32; in a `DAT` it becomes the integer modulo 2^40 if its magnitude is below 2^64.
The source is refused for any other integer and for what begins like a number and means
none, since the value is out of range, and for any other operand, since that is unresolved.
So the decimal text of an operand gives that operand, and the hexadecimal text of a word
that word. -/
theorem assemble_number (reached : Reached geometry source before line behind mnemonic text) :
    (∀ value, MeansInt text value → MeansInt (upper text) value) ∧
    (∀ opcode, Directive.ofMnemonic? mnemonic = some (.instruction opcode) →
      IsInteger opcode.operandForm →
      (opcode.operandForm ≠ .count →
        ∀ index, ¬Binds (Text.lines source.toList) (upper text) index) →
      TakesInteger geometry source before behind text
        (fun value => -2 ^ 31 ≤ value ∧ value < 2 ^ 32)
        (fun value => Word.ofParts opcode.byte (BitVec.ofInt 32 value)) ∧
      ∀ operand : Operand, text = Numeral.decimal operand.toNat →
        Becomes geometry source before behind (Word.ofParts opcode.byte operand)) ∧
    (Directive.ofMnemonic? mnemonic = some .word →
      TakesInteger geometry source before behind text (fun value => value.natAbs < 2 ^ 64)
        (BitVec.ofInt 40) ∧
      ∀ (word : Word) (width : Nat),
        upper text = '0' :: 'X' :: Numeral.padded width (Numeral.hexadecimal word.toNat) →
        Becomes geometry source before behind word) := by
  refine ⟨fun _ => MeansInt.upper, fun opcode asked integer unbound => ?_, fun asked => ?_⟩
  · have takes := reached.takesInteger_of_instruction asked integer unbound
    refine ⟨takes, ?_⟩
    rintro operand rfl
    have means := MeansInt.upper (.plain (Literal.meansNat_decimal operand.toNat))
    have fits : FitsOperand operand.toNat := by
      rw [FitsOperand]
      omega
    have becomes := takes.inside _ means fits
    rwa [BitVec.ofInt_natCast, BitVec.ofNat_toNat, BitVec.setWidth_eq] at becomes
  · have takes := reached.takesInteger_of_word asked
    refine ⟨takes, ?_⟩
    intro word width written
    have means : MeansInt (upper text) word.toNat :=
      written ▸ .plain (Literal.meansNat_hexadecimal width word.toNat)
    have fits : FitsCount word.toNat := by
      rw [FitsCount]
      omega
    have becomes := takes.inside _ means fits
    rwa [BitVec.ofInt_natCast, BitVec.ofNat_toNat, BitVec.setWidth_eq] at becomes

end

/-- The least integer that fits, in small letters. -/
theorem assemble_number_least :
    Reached {} "A: NOP\nLAI -0x80000000" ["A: NOP".toList] "LAI -0x80000000".toList []
      "LAI".toList "-0x80000000".toList ∧
    MeansInt "-0x80000000".toList (-2147483648) ∧
    (∀ index, ¬Binds (Text.lines "A: NOP\nLAI -0x80000000".toList)
      (upper "-0x80000000".toList) index) ∧
    Becomes {} "A: NOP\nLAI -0x80000000" ["A: NOP".toList] [] 0x0180000000#40 := by
  have assembled : Program.assemble {} "A: NOP\nLAI -0x80000000" =
      .ok ⟨62, [0x0000000000#40, 0x0180000000#40], .ofList [("A", 0)]⟩ := by
    decide +kernel
  have yields := (Program.assemble_eq_ok_iff_yields Geometry.valid_standard).mp assembled
  have encoded := (Program.exists_yields_iff.mp ⟨_, yields⟩).2
  have split : Text.lines "A: NOP\nLAI -0x80000000".toList =
      ["A: NOP".toList] ++ "LAI -0x80000000".toList :: [] := by
    decide +kernel
  have reached : Reached {} "A: NOP\nLAI -0x80000000" ["A: NOP".toList]
      "LAI -0x80000000".toList [] "LAI".toList "-0x80000000".toList := by
    refine ⟨Geometry.valid_standard, split, yields.wellFormed, ?_, by decide +kernel⟩
    intro written member
    apply encoded written
    rw [split, statements_append]
    exact List.mem_append_left _ member
  have means : MeansInt "-0x80000000".toList (-2147483648) := by
    have spelled : "-0x80000000".toList =
        '-' :: '0' :: 'x' :: ([] ++ ['8', '0', '0', '0', '0', '0', '0', '0']) := by
      decide +kernel
    rw [spelled]
    exact .minus (.marked .smallX (.inl rfl)
      ((Numeral.read?_eq_some_iff (by decide)).mp (by decide +kernel)))
  have unbound : ∀ index, ¬Binds (Text.lines "A: NOP\nLAI -0x80000000".toList)
      (upper "-0x80000000".toList) index :=
    fun index bound => absurd (mem_labels_iff.mpr ⟨index, bound⟩) (by decide +kernel)
  have number := assemble_number reached
  have takes := number.2.1 (.wide .lai) (by decide +kernel) (.inr (.inl rfl)) fun _ => unbound
  exact ⟨reached, means, unbound,
    takes.1.inside (-2147483648) (number.1 _ means) (by decide)⟩

/-- Neither a label that begins like a number nor a letter of two digits is refused: the
first is the label, and the second counts in upper case. -/
theorem assembled_although_no_number :
    (Program.assemble {} "1x: JMP 1x\nHLT" =
        .ok ⟨62, [0x2000000000#40, 0xFF00000000#40], .ofList [("1X", 0)]⟩ ∧
      BeginsInt "1x".toList ∧ ∀ value, ¬MeansInt "1x".toList value) ∧
    Program.assemble {} "LAI 0xﬀ" = .ok ⟨63, [0x01000000FF#40], .empty⟩ ∧
      BeginsInt "0xﬀ".toList ∧ ∀ value, ¬MeansInt "0xﬀ".toList value := by
  have label : "1x".toList = ['1', 'x'] := by decide +kernel
  have ligature : "0xﬀ".toList = ['0', 'x', 'ﬀ'] := by decide +kernel
  rw [label, ligature]
  refine ⟨⟨by decide +kernel, .inl ⟨'1', ['x'], rfl, by decide⟩, ?_⟩, by decide +kernel,
    .inl ⟨'0', ['x', 'ﬀ'], rfl, by decide⟩, ?_⟩
  · intro value means
    generalize same : ['1', 'x'] = text at means
    cases means with
    | minus => cases same
    | plain means =>
        cases means with
        | marked => cases same
        | decimal numeral =>
            have isDecimal := Literal.isDecimal_of_denotes numeral 'x' (same ▸ by decide)
            exact absurd isDecimal (by decide)
  · intro value means
    generalize same : ['0', 'x', 'ﬀ'] = text at means
    cases means with
    | minus => cases same
    | plain means =>
        cases means with
        | decimal numeral =>
            have isDecimal := Literal.isDecimal_of_denotes numeral 'x' (same ▸ by decide)
            exact absurd isDecimal (by decide)
        | @marked mark base sign digits _ radix plus numeral =>
            rcases plus with rfl | rfl
            · cases same
              obtain ⟨digit, isDigit⟩ := numeral.exists_isDigit 'ﬀ' (by decide)
              have read := (Numeral.digitIn?_eq_some_iff radix.le).mpr isDigit
              cases radix with
              | smallX => cases (show Numeral.digitIn? 16 'ﬀ' = none by decide).symm.trans read
            · cases same

end BitSerial.Grammar
