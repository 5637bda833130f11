import BitSerial.Proofs.Assembly.Acceptance
import BitSerial.Proofs.Assembly.Listings
import BitSerial.Proofs.Instruction.Format

/-!
# Words as sources

The text of a word is a source of one line, for a program of one statement.  It comes back
as the word of the instruction that it names, or as the word itself if it names none, and
is refused only for a count that is too large.  So a word is lost by its text exactly if
its instruction ignores some of its bits or repeats an operation too often.
-/

namespace BitSerial

namespace Text

/-- A text without line ends is one line. -/
theorem IsLine.lines_eq {line : List Char} (isLine : IsLine line) (notEmpty : line ≠ []) :
    lines line = [line] := by
  have begun := linesFrom_append isLine.unbroken [] []
  rw [List.append_nil, List.append_nil] at begun
  rw [lines, begun, linesFrom, List.reverse_reverse]
  exact mt List.reverse_eq_nil_iff.mp notEmpty

end Text

/-! ## A source of one statement -/

/-- The text of a word is read as the word's statement. -/
theorem Word.parse_text (word : Word) (number : Nat) :
    SourceLine.parse word.text = ⟨none, some (word.statement number).written⟩ := by
  have none : ∀ char ∈ ([] : List Char), Text.isBlank char = true := nofun
  apply SourceLine.parse_text none none
  rw [List.nil_append, List.append_nil, List.takeWhile_eq_self_iff]
  intro char member
  rw [decide_eq_true_eq]
  rintro rfl
  exact word.not_mem_text member

theorem Word.text_ne_nil (word : Word) : word.text ≠ [] := by
  intro empty
  have read := word.parse_text 1
  rw [empty] at read
  cases read

namespace Outline

/-- The outline of the text of a word is the word's statement. -/
theorem ofSource_text (word : Word) :
    ofSource word.text = .ok (empty.addStatement (word.statement 1)) := by
  have added := addLine_written (word.statement 1) empty
  rw [word.line_statement] at added
  rw [ofSource, word.spaced_text.isLine.lines_eq word.text_ne_nil, addLines, word.parse_text 1,
    added]
  rfl

/-- A statement alone makes a program of its word. -/
theorem place_addStatement (statement : Statement) {capacity : Nat} (room : 0 < capacity) :
    (empty.addStatement statement).place capacity =
      (statement.encode .empty (capacity - 1)).map fun word =>
        ⟨capacity - 1, [word], .empty⟩ := by
  have one : (empty.addStatement statement).size = 1 := rfl
  have sole : (empty.addStatement statement).statements.toList = [statement] := rfl
  rw [place, one, if_neg (Nat.not_lt_of_le room), sole]
  show (do
    let words ← [statement].mapM fun only : Statement => only.encode .empty (capacity - 1)
    return Program.mk (capacity - 1) words .empty) = _
  cases encoded : statement.encode .empty (capacity - 1) with
  | error error => simp [encoded, bind, Except.bind, Except.map]
  | ok word => simp [encoded, bind, Except.bind, pure, Except.pure, Except.map]

end Outline

/-! ## What comes back -/

/-- A count that is too large is refused by its numeral. -/
theorem Instruction.encode_statement_of_excess {count : Operand}
    (excess : Statement.repetitionLimit < count.toNat) (labels : LabelTable) (base line : Nat) :
    ((Instruction.wide .mla count).statement line).encode labels base =
      .error (.valueOutOfRange line (String.ofList (Numeral.decimal count.toNat))) := by
  let statement := Instruction.statement line (.wide .mla count)
  show (do
    let value ← statement.literal (Numeral.decimal count.toNat)
    if value.toNat ≤ Statement.repetitionLimit then return value
    else .error (.valueOutOfRange line (String.ofList (Numeral.decimal count.toNat)))).map _ = _
  rw [statement.literal_decimal]
  show (if count.toNat ≤ Statement.repetitionLimit then Except.ok count else _).map _ = _
  rw [if_neg (Nat.not_le_of_lt excess)]
  rfl

/-- Only a count keeps an instruction from being written. -/
theorem Word.writable_or_excess {word : Word} {instruction : Instruction}
    (decoded : Instruction.decode word = .ok instruction) :
    instruction.Writable ∨
      ∃ count, instruction = .wide .mla count ∧ Statement.repetitionLimit < count.toNat := by
  cases instruction with
  | plain op => exact .inl trivial
  | wide op operand =>
      rcases Nat.lt_or_ge Statement.repetitionLimit operand.toNat with excess | few
      · by_cases repeats : op = .mla
        · subst repeats
          exact .inr ⟨operand, rfl, excess⟩
        · exact .inl fun same => absurd same repeats
      · exact .inl fun _ => few
  | data op address => exact .inl (Instruction.narrow_of_decode decoded)

namespace Program

variable {geometry : Geometry}

theorem assemble_text_eq (valid : geometry.Valid) (word : Word) :
    assemble geometry (String.ofList word.text) =
      ((word.statement 1).encode .empty (geometry.mainWords - 1)).map fun made =>
        ⟨geometry.mainWords - 1, [made], .empty⟩ := by
  rw [assemble_of_valid valid, String.toList_ofList, Outline.ofSource_text]
  exact Outline.place_addStatement (word.statement 1) valid.mainWords_pos

/-- The text of a word that is no instruction makes the word.  The text of an instruction
makes the word of the instruction, without the bits that it ignores, or is refused for a
count that is too large.  So the word itself comes back exactly if it is canonical. -/
theorem assemble_text (valid : geometry.Valid) (word : Word) :
    (∀ unknown, Instruction.decode word = .error unknown →
      assemble geometry (String.ofList word.text) =
        .ok ⟨geometry.mainWords - 1, [word], .empty⟩) ∧
    (∀ instruction, Instruction.decode word = .ok instruction → instruction.Writable →
      assemble geometry (String.ofList word.text) =
        .ok ⟨geometry.mainWords - 1, [instruction.encode], .empty⟩) ∧
    (∀ count, Instruction.decode word = .ok (.wide .mla count) →
      Statement.repetitionLimit < count.toNat →
        assemble geometry (String.ofList word.text) =
          .error (.valueOutOfRange 1 (String.ofList (Numeral.decimal count.toNat)))) ∧
    (assemble geometry (String.ofList word.text) =
        .ok ⟨geometry.mainWords - 1, [word], .empty⟩ ↔ word.Canonical) := by
  have nonnumeric : LabelTable.empty.Nonnumeric := nofun
  have written {instruction : Instruction} (decoded : Instruction.decode word = .ok instruction) :
      word.statement 1 = instruction.statement 1 := by
    rw [Word.statement, decoded]
  have instructed (instruction : Instruction)
      (decoded : Instruction.decode word = .ok instruction) (writable : instruction.Writable) :
      assemble geometry (String.ofList word.text) =
        .ok ⟨geometry.mainWords - 1, [instruction.encode], .empty⟩ := by
    rw [assemble_text_eq valid, written decoded, writable.encode_statement nonnumeric]
    rfl
  have refused (count : Operand) (decoded : Instruction.decode word = .ok (.wide .mla count))
      (excess : Statement.repetitionLimit < count.toNat) :
      assemble geometry (String.ofList word.text) =
        .error (.valueOutOfRange 1 (String.ofList (Numeral.decimal count.toNat))) := by
    rw [assemble_text_eq valid, written decoded,
      Instruction.encode_statement_of_excess excess]
    rfl
  refine ⟨?_, instructed, refused, ?_, ?_⟩
  · intro unknown undecoded
    rw [assemble_text_eq valid, Word.encode_statement_of_error undecoded]
    rfl
  · intro returns instruction decoded
    rcases Word.writable_or_excess decoded with writable | ⟨count, rfl, excess⟩
    · rw [instructed instruction decoded writable] at returns
      cases returns
      refine ⟨rfl, ?_⟩
      rintro count rfl
      exact writable rfl
    · rw [refused count decoded excess] at returns
      cases returns
  · intro canonical
    rw [assemble_text_eq valid, canonical.encode_statement nonnumeric]
    rfl

/-- A number comes back; an idle word with bits that it ignores becomes one without them;
a count of 65537 is refused. -/
theorem assemble_text_stray :
    Geometry.Valid {} ∧
      Word.text 0x7E00000001#40 = "DAT 0x7E00000001".toList ∧
      assemble {} (String.ofList (Word.text 0x7E00000001#40)) =
        .ok ⟨63, [0x7E00000001#40], .empty⟩ ∧
      Word.text 5#40 = "NOP".toList ∧
      assemble {} (String.ofList (Word.text 5#40)) = .ok ⟨63, [0#40], .empty⟩ ∧
      Word.text 0x0E00010001#40 = "MLA 65537".toList ∧
      assemble {} (String.ofList (Word.text 0x0E00010001#40)) =
        .error (.valueOutOfRange 1 "65537") := by
  obtain ⟨number, -, -, -⟩ := assemble_text Geometry.valid_standard 0x7E00000001#40
  obtain ⟨-, idle, -, -⟩ := assemble_text Geometry.valid_standard 5#40
  obtain ⟨-, -, excess, -⟩ := assemble_text Geometry.valid_standard 0x0E00010001#40
  have unknown : Instruction.decode 0x7E00000001#40 = .error ⟨0x7E#8⟩ := by decide +kernel
  have nop : Instruction.decode 5#40 = .ok (.plain .nop) := by decide +kernel
  have mla : Instruction.decode 0x0E00010001#40 = .ok (.wide .mla 65537#32) := by decide +kernel
  exact ⟨Geometry.valid_standard, by decide +kernel, number _ unknown, by decide +kernel,
    idle _ nop trivial, by decide +kernel, excess _ mla (by decide)⟩

/-- Not every word is a program again by its text. -/
theorem text_not_assembled_again :
    ¬ ∀ (geometry : Geometry), geometry.Valid → ∀ word : Word, ∃ program : Program,
      assemble geometry (String.ofList word.text) = .ok program ∧ program.words = [word] := by
  intro returns
  obtain ⟨program, assembled, -⟩ := returns {} Geometry.valid_standard 0x0E00010001#40
  have decoded : Instruction.decode 0x0E00010001#40 = .ok (.wide .mla 65537#32) := by
    decide +kernel
  have excess : Statement.repetitionLimit < (65537#32).toNat := by decide
  rw [assemble_text_eq Geometry.valid_standard, Word.statement, decoded] at assembled
  dsimp only at assembled
  rw [Instruction.encode_statement_of_excess excess] at assembled
  cases assembled

end Program

end BitSerial
