import BitSerial.Proofs.Assembly.Literals
import BitSerial.Proofs.Text.Digits
import BitSerial.Proofs.Text.Letters

/-!
# Texts of numbers

Which number a text means, said of its characters alone: digits, with a radix mark in front
of them or none, and a minus sign in front of it all or none.  The reader of literals knows
every such text in capitals, for its number; of the other texts it takes those that begin
with a digit, behind a minus sign or not, for numbers without a value, and the rest for no
numbers at all.  In upper case a number stays the number that it is, and no other text comes
to begin like one.
-/

namespace BitSerial.Literal

open Text (upper upperChar)

/-! ## Integers as they are written -/

/-- A letter stands for a radix behind a zero. -/
inductive RadixMark : Char → Nat → Prop
  | smallX : RadixMark 'x' 16
  | capitalX : RadixMark 'X' 16
  | smallB : RadixMark 'b' 2
  | capitalB : RadixMark 'B' 2

/-- A text means a natural number.  Behind a radix mark there may be a plus sign. -/
inductive MeansNat : List Char → Nat → Prop
  | decimal {text : List Char} {value : Nat} (numeral : Numeral.Denotes 10 text value) :
      MeansNat text value
  | marked {mark : Char} {base : Nat} {sign digits : List Char} {value : Nat}
      (radix : RadixMark mark base) (plus : sign = [] ∨ sign = ['+'])
      (numeral : Numeral.Denotes base digits value) :
      MeansNat ('0' :: mark :: (sign ++ digits)) value

/-- A text means an integer. -/
inductive MeansInt : List Char → Int → Prop
  | plain {text : List Char} {value : Nat} (means : MeansNat text value) : MeansInt text value
  | minus {text : List Char} {value : Nat} (means : MeansNat text value) :
      MeansInt ('-' :: text) (-value)

/-- A text begins with a digit. -/
def BeginsNat (text : List Char) : Prop :=
  ∃ first rest, text = first :: rest ∧ Numeral.isDecimal first = true

/-- A text begins with a digit, behind a minus sign or not. -/
def BeginsInt (text : List Char) : Prop :=
  BeginsNat text ∨ ∃ rest, text = '-' :: rest ∧ BeginsNat rest

/-- A literal stands for an integer.  It has no value where that is too large for a count. -/
inductive StandsFor : Literal → Int → Prop
  | plain (magnitude : Nat) : StandsFor ⟨false, bounded (some magnitude)⟩ magnitude
  | minus (magnitude : Nat) : StandsFor ⟨true, bounded (some magnitude)⟩ (-magnitude)

/-- An integer is in the range of operands, with a sign or without one. -/
def FitsOperand (value : Int) : Prop :=
  -2 ^ 31 ≤ value ∧ value < 2 ^ 32

/-- An integer has a count for its magnitude. -/
def FitsCount (value : Int) : Prop :=
  value.natAbs < 2 ^ 64

/-- A text in capitals, as far as ASCII goes. -/
def Capital (text : List Char) : Prop :=
  ∀ char ∈ text, char.toUpper = char

variable {text digits sign : List Char} {base value : Nat}

/-! ## The reader of literals -/

theorem bounded_eq_some_iff {read : Option Nat} :
    bounded read = some value ↔ read = some value ∧ value < countLimit := by
  rw [bounded, Option.filter_eq_some_iff, decide_eq_true_eq]

theorem isDecimal_of_denotes (numeral : Numeral.Denotes 10 text value) :
    ∀ char ∈ text, Numeral.isDecimal char = true := by
  intro char member
  obtain ⟨digit, isDigit⟩ := numeral.exists_isDigit char member
  rw [Numeral.isDecimal, (Numeral.digitIn?_eq_some_iff (by decide)).mpr isDigit]
  rfl

theorem RadixMark.le {mark : Char} (radix : RadixMark mark base) : base ≤ 16 := by
  cases radix with
  | smallX | capitalX | smallB | capitalB => decide

/-- A numeral begins with a digit. -/
theorem MeansNat.begins (means : MeansNat text value) : BeginsNat text := by
  cases means with
  | decimal numeral =>
      have digits := isDecimal_of_denotes numeral
      obtain ⟨_, some, _⟩ := numeral
      cases text with
      | nil => exact absurd rfl some
      | cons first rest => exact ⟨first, rest, rfl, digits first List.mem_cons_self⟩
  | marked => exact ⟨'0', _, rfl, by decide⟩

/-- Behind a radix mark a numeral is read, and a plus sign in front of it is not. -/
theorem marked_of_denotes (upToSixteen : base ≤ 16) (plus : sign = [] ∨ sign = ['+'])
    (numeral : Numeral.Denotes base digits value) :
    marked base (sign ++ digits) = bounded (some value) := by
  have read := (Numeral.read?_eq_some_iff upToSixteen).mpr numeral
  rcases plus with rfl | rfl
  · have unsigned : '+' ∉ digits := by
      intro member
      obtain ⟨digit, isDigit⟩ := numeral.exists_isDigit '+' member
      cases (Numeral.digitIn?_eq_some_iff upToSixteen).mpr isDigit
    rw [List.nil_append, marked_eq unsigned, read]
  · show bounded (Numeral.read? base digits) = _
    rw [read]

theorem magnitudeOf?_of_means (capital : Capital text) (means : MeansNat text value) :
    magnitudeOf? text = some (bounded (some value)) := by
  cases means with
  | decimal numeral =>
      have digits := isDecimal_of_denotes numeral
      have read := (Numeral.read?_eq_some_iff (by decide)).mpr numeral
      obtain ⟨_, some, _⟩ := numeral
      rw [magnitudeOf?_of_isDecimal some digits, read]
  | @marked mark base sign digits _ radix plus numeral =>
      have read := marked_of_denotes radix.le plus numeral
      have isCapital : mark.toUpper = mark := capital mark (by simp)
      cases radix with
      | smallX | smallB => exact absurd isCapital (by decide)
      | capitalX | capitalB => exact congrArg some read

theorem marked_of_meaningless {mark : Char} (radix : RadixMark mark base)
    (meaningless : ∀ value, ¬MeansNat ('0' :: mark :: digits) value) :
    marked base digits = none := by
  rw [Option.eq_none_iff_forall_ne_some]
  intro value read
  rw [marked.eq_def] at read
  split at read
  · have numeral := (Numeral.read?_eq_some_iff radix.le).mp (bounded_eq_some_iff.mp read).1
    exact meaningless value (.marked radix (.inr rfl) numeral)
  · have numeral := (Numeral.read?_eq_some_iff radix.le).mp (bounded_eq_some_iff.mp read).1
    exact meaningless value (.marked radix (.inl rfl) numeral)

/-- A text that begins like a natural number and means none has no value. -/
theorem magnitudeOf?_of_begins (begins : BeginsNat text)
    (meaningless : ∀ value, ¬MeansNat text value) : magnitudeOf? text = some none := by
  rw [magnitudeOf?.eq_def]
  split
  · rw [marked_of_meaningless .capitalX meaningless]
  · rw [marked_of_meaningless .capitalB meaningless]
  · obtain ⟨_, _, ⟨⟩, _⟩ := begins
  · obtain ⟨_, _, ⟨⟩, isDecimal⟩ := begins
    rw [if_pos isDecimal, Option.some.injEq, Option.eq_none_iff_forall_ne_some]
    intro value read
    have numeral := (Numeral.read?_eq_some_iff (by decide)).mp (bounded_eq_some_iff.mp read).1
    exact meaningless value (.decimal numeral)

theorem magnitudeOf?_of_not_begins (notNumber : ¬BeginsNat text) : magnitudeOf? text = none := by
  rw [magnitudeOf?.eq_def]
  split
  · exact absurd ⟨'0', _, rfl, by decide⟩ notNumber
  · exact absurd ⟨'0', _, rfl, by decide⟩ notNumber
  · rfl
  · rw [if_neg fun isDecimal => notNumber ⟨_, _, rfl, isDecimal⟩]

/-- A digit in front is no minus sign. -/
theorem BeginsNat.ofText?_eq (begins : BeginsNat text) :
    ofText? text = (magnitudeOf? text).map fun magnitude => ⟨false, magnitude⟩ := by
  obtain ⟨first, rest, rfl, isDecimal⟩ := begins
  rw [ofText?.eq_def]
  split
  · rename_i signed
    cases signed
    exact absurd isDecimal (by decide)
  · rfl

/-- A text in capitals that means an integer is a literal for it. -/
theorem exists_standsFor {value : Int} (capital : Capital text) (means : MeansInt text value) :
    ∃ literal, ofText? text = some literal ∧ literal.StandsFor value := by
  cases means with
  | @plain _ magnitude means =>
      rw [means.begins.ofText?_eq, magnitudeOf?_of_means capital means]
      exact ⟨_, rfl, .plain magnitude⟩
  | @minus digits magnitude means =>
      have behind : Capital digits := fun char member =>
        capital char (List.mem_cons_of_mem _ member)
      show ∃ literal, (magnitudeOf? digits).map _ = some literal ∧ _
      rw [magnitudeOf?_of_means behind means]
      exact ⟨_, rfl, .minus magnitude⟩

/-- A text that begins like a number and means none is a literal without a value. -/
theorem exists_of_begins (begins : BeginsInt text)
    (meaningless : ∀ value, ¬MeansInt text value) :
    ∃ negative, ofText? text = some ⟨negative, none⟩ := by
  rcases begins with begins | ⟨digits, rfl, begins⟩
  · have valueless := magnitudeOf?_of_begins begins fun value means =>
      meaningless value (.plain means)
    rw [begins.ofText?_eq, valueless]
    exact ⟨false, rfl⟩
  · have valueless := magnitudeOf?_of_begins begins fun value means =>
      meaningless (-value) (.minus means)
    show ∃ negative, (magnitudeOf? digits).map _ = _
    rw [valueless]
    exact ⟨true, rfl⟩

/-- A text that does not begin like a number is none. -/
theorem ofText?_of_not_begins (notNumber : ¬BeginsInt text) : ofText? text = none := by
  rw [ofText?.eq_def]
  split
  · rename_i digits
    rw [magnitudeOf?_of_not_begins fun begins => notNumber (.inr ⟨digits, rfl, begins⟩)]
    rfl
  · rw [magnitudeOf?_of_not_begins fun begins => notNumber (.inl begins)]
    rfl

/-! ## Values -/

section

variable {literal : Literal} {value : Int}

theorem bounded_of_not_lt {value : Nat} (large : ¬value < countLimit) :
    bounded (some value) = none := by
  rw [bounded, Option.filter_some_neg]
  exact decide_eq_false large

/-- What is no count is too large for an operand. -/
theorem operandLimit_lt {value : Nat} (large : ¬value < countLimit) : operandLimit < value := by
  rw [countLimit] at large
  rw [operandLimit]
  omega

theorem operand?_plain (magnitude : Nat) :
    operand? ⟨false, bounded (some magnitude)⟩ =
      if magnitude < operandLimit then some (BitVec.ofNat 32 magnitude) else none := by
  by_cases counted : magnitude < countLimit
  · rw [bounded_of_lt counted]
    rfl
  · have large := operandLimit_lt counted
    rw [bounded_of_not_lt counted, if_neg (by omega)]
    rfl

theorem operand?_minus (magnitude : Nat) :
    operand? ⟨true, bounded (some magnitude)⟩ =
      if 2 * magnitude ≤ operandLimit then some (-BitVec.ofNat 32 magnitude) else none := by
  by_cases counted : magnitude < countLimit
  · rw [bounded_of_lt counted]
    rfl
  · have large := operandLimit_lt counted
    rw [bounded_of_not_lt counted, if_neg (by omega)]
    rfl

theorem StandsFor.operand?_of_fits (standsFor : literal.StandsFor value)
    (fits : FitsOperand value) : literal.operand? = some (BitVec.ofInt 32 value) := by
  obtain ⟨lower, upper⟩ := fits
  cases standsFor with
  | plain magnitude =>
      have inside : magnitude < operandLimit := by
        rw [operandLimit]
        omega
      rw [operand?_plain, if_pos inside, BitVec.ofInt_natCast]
  | minus magnitude =>
      have inside : 2 * magnitude ≤ operandLimit := by
        rw [operandLimit]
        omega
      rw [operand?_minus, if_pos inside, BitVec.ofInt_neg, BitVec.ofInt_natCast]

theorem StandsFor.operand?_of_not_fits (standsFor : literal.StandsFor value)
    (outside : ¬FitsOperand value) : literal.operand? = none := by
  rw [FitsOperand] at outside
  cases standsFor with
  | plain magnitude =>
      have large : ¬magnitude < operandLimit := by
        rw [operandLimit]
        omega
      rw [operand?_plain, if_neg large]
  | minus magnitude =>
      have large : ¬2 * magnitude ≤ operandLimit := by
        rw [operandLimit]
        omega
      rw [operand?_minus, if_neg large]

theorem StandsFor.word?_of_fits (standsFor : literal.StandsFor value) (fits : FitsCount value) :
    literal.word? = some (BitVec.ofInt 40 value) := by
  rw [FitsCount] at fits
  cases standsFor with
  | plain magnitude =>
      have counted : magnitude < countLimit := by
        rw [countLimit]
        omega
      rw [word?, bounded_of_lt counted, BitVec.ofInt_natCast]
      rfl
  | minus magnitude =>
      have counted : magnitude < countLimit := by
        rw [countLimit]
        omega
      rw [word?, bounded_of_lt counted, BitVec.ofInt_neg, BitVec.ofInt_natCast]
      rfl

theorem StandsFor.word?_of_not_fits (standsFor : literal.StandsFor value)
    (large : ¬FitsCount value) : literal.word? = none := by
  rw [FitsCount] at large
  cases standsFor with
  | plain magnitude | minus magnitude =>
      have uncounted : ¬magnitude < countLimit := by
        rw [countLimit]
        omega
      rw [word?, bounded_of_not_lt uncounted]
      rfl

end

/-! ## Upper case -/

theorem capital_upper (text : List Char) : Capital (upper text) := by
  intro image member
  obtain ⟨char, -, given⟩ := List.mem_flatMap.mp member
  have fixed : upperChar image = [image] := Text.fixed_of_mem_upperChar given
  by_cases narrow : image.toNat < 128
  · rw [upperChar, if_pos narrow] at fixed
    exact List.singleton_inj.mp fixed
  · exact Text.toUpper_of_wide narrow

/-- What a number begins with: a decimal digit or a minus sign. -/
def opens (char : Char) : Bool :=
  Numeral.isDecimal char || char = '-'

/-- The codes of what a number begins with. -/
def openCodes : List Nat :=
  [0x2D, 0x30, 0x31, 0x32, 0x33, 0x34, 0x35, 0x36, 0x37, 0x38, 0x39]

theorem toNat_lt_of_opens {char : Char} (isOpen : opens char = true) : char.toNat < 128 := by
  rw [opens, Bool.or_eq_true, decide_eq_true_eq] at isOpen
  rcases isOpen with isDecimal | rfl
  · exact Numeral.toNat_lt_of_isDecimal isDecimal
  · decide

theorem unlettered_opens : Text.Unlettered opens openCodes where
  listed char isOpen :=
    Text.forall_of_forall_code (fun char => opens char = true → char.toNat ∈ openCodes)
      (by decide +kernel) (toNat_lt_of_opens isOpen) isOpen
  nul := by decide
  narrow := by decide +kernel
  runs := by decide +kernel
  expansions := by decide +kernel

theorem upperChar_of_opens {char : Char} (isOpen : opens char = true) : upperChar char = [char] :=
  Text.forall_of_forall_code (fun char => opens char = true → upperChar char = [char])
    (by decide +kernel) (toNat_lt_of_opens isOpen) isOpen

/-- A text begins in upper case with what opens a number if it begins so itself. -/
theorem upper_eq_cons_iff {char : Char} {images : List Char} (isOpen : opens char = true) :
    upper text = char :: images ↔ ∃ rest, text = char :: rest ∧ images = upper rest := by
  have opened (rest : List Char) : upper (char :: rest) = char :: upper rest := by
    rw [upper, List.flatMap_cons, upperChar_of_opens isOpen]
    rfl
  constructor
  · intro same
    cases text with
    | nil => cases same
    | cons first rest =>
        obtain rfl : char = first := by
          rw [upper, List.flatMap_cons] at same
          cases given : upperChar first with
          | nil => exact absurd given (Text.upperChar_ne_nil first)
          | cons image others =>
              rw [given] at same
              obtain ⟨rfl, -⟩ := List.cons.inj same
              exact unlettered_opens.eq_of_mem (given ▸ List.mem_cons_self) isOpen
        rw [opened] at same
        exact ⟨rest, rfl, (List.cons.inj same).2.symm⟩
  · rintro ⟨rest, rfl, rfl⟩
    exact opened rest

theorem beginsNat_upper : BeginsNat (upper text) ↔ BeginsNat text := by
  have isOpen {first : Char} (isDecimal : Numeral.isDecimal first = true) : opens first = true := by
    rw [opens, isDecimal, Bool.true_or]
  constructor
  · rintro ⟨first, images, same, isDecimal⟩
    obtain ⟨rest, rfl, -⟩ := (upper_eq_cons_iff (isOpen isDecimal)).mp same
    exact ⟨first, rest, rfl, isDecimal⟩
  · rintro ⟨first, rest, rfl, isDecimal⟩
    exact ⟨first, upper rest, (upper_eq_cons_iff (isOpen isDecimal)).mpr ⟨rest, rfl, rfl⟩,
      isDecimal⟩

/-- Whether a text begins like a number does not depend on its letters. -/
theorem beginsInt_upper : BeginsInt (upper text) ↔ BeginsInt text := by
  have minus : opens '-' = true := by decide
  constructor
  · rintro (begins | ⟨images, same, begins⟩)
    · exact .inl (beginsNat_upper.mp begins)
    · obtain ⟨rest, rfl, rfl⟩ := (upper_eq_cons_iff minus).mp same
      exact .inr ⟨rest, rfl, beginsNat_upper.mp begins⟩
  · rintro (begins | ⟨rest, rfl, begins⟩)
    · exact .inl (beginsNat_upper.mpr begins)
    · exact .inr ⟨upper rest, (upper_eq_cons_iff minus).mpr ⟨rest, rfl, rfl⟩,
        beginsNat_upper.mpr begins⟩

/-- A number means the same in upper case. -/
theorem MeansNat.upper (means : MeansNat text value) : MeansNat (upper text) value := by
  cases means with
  | decimal numeral => exact .decimal (numeral.upper (by decide))
  | @marked mark base sign digits _ radix plus numeral =>
      have capitalMark : upperChar mark = [mark.toUpper] ∧ RadixMark mark.toUpper base := by
        cases radix with
        | smallX | capitalX => exact ⟨rfl, .capitalX⟩
        | smallB | capitalB => exact ⟨rfl, .capitalB⟩
      have sameSign : Text.upper sign = sign := by
        rcases plus with rfl | rfl
        · rfl
        · rfl
      have split : Text.upper ('0' :: mark :: (sign ++ digits)) =
          '0' :: mark.toUpper :: (sign ++ Text.upper digits) := by
        rw [← sameSign, ← Text.upper_append, sameSign]
        show upperChar '0' ++ (upperChar mark ++ _) = _
        rw [capitalMark.1]
        rfl
      rw [split]
      exact .marked capitalMark.2 plus (numeral.upper radix.le)

theorem MeansInt.upper {value : Int} (means : MeansInt text value) :
    MeansInt (upper text) value := by
  cases means with
  | plain means => exact .plain means.upper
  | minus means => exact .minus means.upper

/-! ## Numbers that are written -/

theorem meansNat_decimal (value : Nat) : MeansNat (Numeral.decimal value) value :=
  .decimal ((Numeral.read?_eq_some_iff (by decide)).mp (Numeral.read?_decimal value))

theorem meansNat_hexadecimal (width value : Nat) :
    MeansNat ('0' :: 'X' :: Numeral.padded width (Numeral.hexadecimal value)) value := by
  have numeral := (Numeral.read?_eq_some_iff (by decide)).mp
    (Numeral.read?_padded_hexadecimal width value)
  exact @MeansNat.marked 'X' 16 [] _ value .capitalX (.inl rfl) numeral

end BitSerial.Literal
