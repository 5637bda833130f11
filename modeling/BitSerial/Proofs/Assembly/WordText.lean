import BitSerial.Listing
import BitSerial.Proofs.Assembly.WordStatement
import BitSerial.Proofs.Text.Layout

/-!
# The text of a word

The text of a word is a statement, and it is read back as that statement wherever it
stands on a line of its own.
-/

namespace BitSerial

/-! ## Tokens -/

/-- A character that ends neither a word of a statement nor the statement. -/
def Text.isInert (char : Char) : Bool :=
  !Text.isBlank char && char ≠ ':' && char ≠ ';'

/-- A word of a statement. -/
structure IsToken (token : List Char) : Prop where
  some : token ≠ []
  inert : ∀ char ∈ token, Text.isInert char = true

theorem Text.isInert_of_isCapital {char : Char} (capital : isCapital char = true) :
    isInert char = true := by
  have unmarked := not_isMark_of_isCapital capital
  simp only [isMark, Bool.or_eq_false_iff, decide_eq_false_iff_not] at unmarked
  obtain ⟨⟨⟨solid, -⟩, notColon⟩, notSemicolon⟩ := unmarked
  simp [isInert, solid, notColon, notSemicolon]

theorem IsToken.isRun {token : List Char} (isToken : IsToken token) :
    Text.IsRun Text.isBlank token where
  some := isToken.some
  solid char member := by
    have inert := isToken.inert char member
    simp only [Text.isInert, Bool.and_eq_true, Bool.not_eq_true'] at inert
    exact inert.1.1

theorem isToken_of_isCapital {token : List Char} (some : token ≠ [])
    (capital : ∀ char ∈ token, Text.isCapital char = true) : IsToken token where
  some := some
  inert char member := Text.isInert_of_isCapital (capital char member)

theorem isToken_decimal (value : Nat) : IsToken (Numeral.decimal value) :=
  isToken_of_isCapital (Numeral.decimal_ne_nil value) Numeral.isCapital_of_mem_decimal

theorem IsToken.append {left right : List Char} (isLeft : IsToken left)
    (isRight : ∀ char ∈ right, Text.isInert char = true) : IsToken (left ++ right) where
  some := List.append_ne_nil_of_left_ne_nil isLeft.some _
  inert char member := by
    rcases List.mem_append.mp member with inLeft | inRight
    · exact isLeft.inert char inLeft
    · exact isRight char inRight

theorem Opcode.all_mnemonic : (all.all fun opcode =>
    opcode.mnemonic.toList ≠ [] && opcode.mnemonic.toList.all Text.isCapital) = true := by
  decide +kernel

theorem Opcode.mnemonic_ne_nil (opcode : Opcode) : opcode.mnemonic.toList ≠ [] := by
  have checked := List.all_eq_true.mp all_mnemonic opcode opcode.mem_all
  exact of_decide_eq_true (Bool.and_eq_true_iff.mp checked).1

theorem Opcode.isCapital_of_mem_mnemonic (opcode : Opcode) :
    ∀ char ∈ opcode.mnemonic.toList, Text.isCapital char = true := by
  have checked := List.all_eq_true.mp all_mnemonic opcode opcode.mem_all
  exact List.all_eq_true.mp (Bool.and_eq_true_iff.mp checked).2

/-- The words behind the mnemonic in an instruction's text. -/
def Instruction.operandTokens : Instruction → List (List Char)
  | .plain _ => []
  | .wide _ operand => [Numeral.decimal operand.toNat]
  | .data _ address =>
      [Numeral.decimal address.bank.toNat ++ [','], Numeral.decimal address.word.toNat]

/-- The words of an instruction's text. -/
def Instruction.tokens (instruction : Instruction) : List (List Char) :=
  instruction.mnemonic.toList :: instruction.operandTokens

/-- The words of a word's text. -/
def Word.tokens (word : Word) : List (List Char) :=
  match Instruction.decode word with
  | .ok instruction => instruction.tokens
  | .error _ =>
      ["DAT".toList, '0' :: 'x' :: Numeral.padded 10 (Numeral.hexadecimal word.toNat)]

theorem Instruction.text_eq (instruction : Instruction) :
    instruction.text = Text.unwords instruction.tokens := by
  cases instruction with
  | plain op =>
      rw [tokens, operandTokens, Text.unwords, List.intercalate_singleton]
      rfl
  | wide op operand =>
      rw [tokens, operandTokens, Text.unwords_cons_cons, Text.unwords, List.intercalate_singleton,
        List.append_assoc, text]
      rfl
  | data op address =>
      rw [tokens, operandTokens, Text.unwords_cons_cons, Text.unwords_cons_cons, Text.unwords,
        List.intercalate_singleton, text]
      simp

theorem Word.text_eq (word : Word) : word.text = Text.unwords word.tokens := by
  rw [text, tokens]
  cases Instruction.decode word with
  | ok instruction => exact instruction.text_eq
  | error unknown =>
      dsimp only
      rw [Text.unwords_cons_cons, Text.unwords, List.intercalate_singleton]
      rfl

theorem Instruction.isToken_of_mem_tokens (instruction : Instruction) :
    ∀ token ∈ instruction.tokens, IsToken token := by
  intro token member
  rcases List.mem_cons.mp member with rfl | operand
  · exact isToken_of_isCapital instruction.opcode.mnemonic_ne_nil
      instruction.opcode.isCapital_of_mem_mnemonic
  · cases instruction with
    | plain op => cases operand
    | wide op operand =>
        obtain rfl := List.mem_singleton.mp operand
        exact isToken_decimal _
    | data op address =>
        rcases List.mem_cons.mp operand with rfl | last
        · exact (isToken_decimal _).append (List.forall_mem_singleton.mpr rfl)
        · obtain rfl := List.mem_singleton.mp last
          exact isToken_decimal _

theorem Numeral.isCapital_of_mem_code {word : Word} :
    ∀ char ∈ padded 10 (hexadecimal word.toNat), Text.isCapital char = true :=
  isCapital_of_mem_padded isCapital_of_mem_hexadecimal

theorem Word.isToken_of_mem_tokens (word : Word) : ∀ token ∈ word.tokens, IsToken token := by
  intro token member
  rw [tokens] at member
  cases decoded : Instruction.decode word with
  | ok instruction =>
      rw [decoded] at member
      exact instruction.isToken_of_mem_tokens token member
  | error unknown =>
      rw [decoded] at member
      rcases List.mem_cons.mp member with rfl | number
      · exact isToken_of_isCapital (by decide) (List.all_eq_true.mp rfl)
      · obtain rfl := List.mem_singleton.mp number
        have mark : IsToken ['0', 'x'] := ⟨List.cons_ne_nil _ _, List.all_eq_true.mp rfl⟩
        exact mark.append fun char digit =>
          Text.isInert_of_isCapital (Numeral.isCapital_of_mem_code char digit)

namespace SourceLine

/-- A line whose code is some tokens between blanks has no label, and the tokens for
its statement. -/
theorem parse_unwords {line before behind : List Char} {tokens : List (List Char)}
    (isToken : ∀ token ∈ tokens, IsToken token)
    (beforeBlank : ∀ char ∈ before, Text.isBlank char = true)
    (behindBlank : ∀ char ∈ behind, Text.isBlank char = true)
    (text : line.takeWhile (· ≠ ';') = before ++ (Text.unwords tokens ++ behind)) :
    parse line = ⟨none, statement? (Text.unwords tokens)⟩ := by
  have isRun (token) (member : token ∈ tokens) := (isToken token member).isRun
  have isCode : code line = Text.unwords tokens := by
    rw [code, text]
    exact (Text.trimmed_unwords isRun).trim_between beforeBlank behindBlank
  have unlabelled : (Text.unwords tokens).dropWhile (· ≠ ':') = [] := by
    rw [List.dropWhile_eq_nil_iff]
    intro char member
    rw [decide_eq_true_eq]
    rintro rfl
    rcases Text.mem_unwords member with space | ⟨token, listed, inToken⟩
    · cases space
    · exact absurd ((isToken token listed).inert ':' inToken) (by decide)
  rw [parse, isCode, splitLabel, unlabelled]

theorem statement?_unwords {mnemonic : List Char} {rest : List (List Char)}
    (isToken : ∀ token ∈ mnemonic :: rest, IsToken token) :
    statement? (Text.unwords (mnemonic :: rest)) = some (Text.upper mnemonic, operands rest) := by
  rw [statement?, Text.words_unwords fun token member => (isToken token member).isRun]

/-! ## Operands -/

theorem operands_cons (word : List Char) (rest : List (List Char)) :
    operands (word :: rest) = (Text.runs (· = ',') word).map Text.upper ++ operands rest := by
  rw [operands, List.flatMap_cons, List.map_append, ← operands]

theorem isRun_comma {word : List Char} (some : word ≠ [])
    (capital : ∀ char ∈ word, Text.isCapital char = true) :
    Text.IsRun (fun char => decide (char = ',')) word where
  some := some
  solid char member := by
    rw [decide_eq_false_iff_not]
    rintro rfl
    exact absurd (capital ',' member) (by decide)

theorem upper_of_isCapital {word : List Char}
    (capital : ∀ char ∈ word, Text.isCapital char = true) : Text.upper word = word :=
  Text.upper_of_fixed fun char member => Text.fixed_of_isCapital (capital char member)

/-- A word of capitals and digits is an operand as it is. -/
theorem operands_cons_of_isCapital {word : List Char} (some : word ≠ [])
    (capital : ∀ char ∈ word, Text.isCapital char = true) (rest : List (List Char)) :
    operands (word :: rest) = word :: operands rest := by
  rw [operands_cons, (isRun_comma some capital).runs_eq, List.map_singleton,
    upper_of_isCapital capital]
  rfl

/-- A comma behind it is no part of it. -/
theorem operands_cons_comma {word : List Char} (some : word ≠ [])
    (capital : ∀ char ∈ word, Text.isCapital char = true) (rest : List (List Char)) :
    operands ((word ++ [',']) :: rest) = word :: operands rest := by
  rw [operands_cons, (isRun_comma some capital).runs_append_cons (by decide), Text.runs,
    Text.runsFrom, List.map_singleton, upper_of_isCapital capital]
  rfl

/-- The mark of a hexadecimal number comes to upper case. -/
theorem operands_hexadecimal {digits : List Char}
    (capital : ∀ char ∈ digits, Text.isCapital char = true) :
    operands ['0' :: 'x' :: digits] = ['0' :: 'X' :: digits] := by
  have isRun : Text.IsRun (fun char => decide (char = ',')) ('0' :: 'x' :: digits) := by
    refine ⟨List.cons_ne_nil _ _, ?_⟩
    intro char member
    rw [decide_eq_false_iff_not]
    rintro rfl
    rcases List.mem_cons.mp member with zero | mark
    · cases zero
    · rcases List.mem_cons.mp mark with mark | digit
      · cases mark
      · exact absurd (capital ',' digit) (by decide)
  have marked : Text.upper ('0' :: 'x' :: digits) = '0' :: 'X' :: Text.upper digits :=
    Text.upper_append ['0', 'x'] digits
  rw [operands_cons, isRun.runs_eq, List.map_singleton, marked, upper_of_isCapital capital]
  rfl

theorem statement?_instruction (line : Nat) (instruction : Instruction) :
    statement? (Text.unwords instruction.tokens) = some (instruction.statement line).written := by
  have mnemonic : Text.upper instruction.mnemonic.toList = instruction.mnemonic.toList :=
    upper_of_isCapital instruction.opcode.isCapital_of_mem_mnemonic
  rw [Instruction.tokens, statement?_unwords instruction.isToken_of_mem_tokens, mnemonic]
  cases instruction with
  | plain op => rfl
  | wide op operand =>
      rw [Instruction.operandTokens,
        operands_cons_of_isCapital (Numeral.decimal_ne_nil _) Numeral.isCapital_of_mem_decimal]
      rfl
  | data op address =>
      rw [Instruction.operandTokens,
        operands_cons_comma (Numeral.decimal_ne_nil _) Numeral.isCapital_of_mem_decimal,
        operands_cons_of_isCapital (Numeral.decimal_ne_nil _) Numeral.isCapital_of_mem_decimal]
      rfl

theorem statement?_text (line : Nat) (word : Word) :
    statement? (Text.unwords word.tokens) = some (word.statement line).written := by
  cases decoded : Instruction.decode word with
  | ok instruction =>
      rw [Word.tokens, Word.statement, decoded]
      exact statement?_instruction line instruction
  | error unknown =>
      have isToken := word.isToken_of_mem_tokens
      rw [Word.tokens, decoded] at isToken
      rw [Word.tokens, Word.statement, decoded]
      dsimp only
      have mnemonic : Text.upper "DAT".toList = "DAT".toList := by decide
      rw [statement?_unwords isToken, operands_hexadecimal Numeral.isCapital_of_mem_code, mnemonic]
      rfl

/-- On a line of its own, blanks and a comment aside, the text of a word is read as
its statement. -/
theorem parse_text {line before behind : List Char} {word : Word}
    (beforeBlank : ∀ char ∈ before, Text.isBlank char = true)
    (behindBlank : ∀ char ∈ behind, Text.isBlank char = true)
    (text : line.takeWhile (· ≠ ';') = before ++ (word.text ++ behind)) (number : Nat) :
    parse line = ⟨none, some (word.statement number).written⟩ := by
  rw [Word.text_eq] at text
  rw [parse_unwords word.isToken_of_mem_tokens beforeBlank behindBlank text,
    statement?_text number]

end SourceLine

end BitSerial
