import BitSerial.Proofs.Assembly.FirstPass
import BitSerial.Proofs.Assembly.SecondPass

/-!
# What is assembled

A source is assembled if and only if its lines are well formed and every statement stands
for a word, and the program is the one that the lines say.  Any other source is refused for
one error, and its lines alone say which one counts.
-/

namespace BitSerial

open Grammar
open SourceLine (parse statements)

variable {capacity : Nat} {lines : List (List Char)} {program : Program} {error : AssemblyError}

theorem Grammar.WellFormed.fine (wellFormed : WellFormed capacity lines) : Fine lines :=
  fine_iff.mpr ⟨wellFormed.labels_nodup, wellFormed.known⟩

theorem Grammar.Fine.wellFormed (fine : Fine lines) (closed : Closed lines)
    (fits : (statements lines).length ≤ capacity) : WellFormed capacity lines where
  labels_nodup := (fine_iff.mp fine).1
  known := (fine_iff.mp fine).2
  closed := closed
  fits := fits

/-- Items can be paired off if each of them has something to be paired with. -/
theorem exists_forall₂_iff {α β : Type} {relates : α → β → Prop} {items : List α} :
    (∃ others, List.Forall₂ relates items others) ↔
      ∀ item ∈ items, ∃ other, relates item other := by
  induction items with
  | nil => simp
  | cons item items ih =>
      rw [List.forall_mem_cons, ← ih]
      constructor
      · rintro ⟨_, _ | ⟨related, rest⟩⟩
        exact ⟨⟨_, related⟩, _, rest⟩
      · rintro ⟨⟨other, related⟩, others, rest⟩
        exact ⟨other :: others, .cons related rest⟩

/-! ## Outlines that describe their lines -/

namespace Outline

variable {outline : Outline}

/-- The names that an outline binds are those that the lines bind. -/
theorem Describes.binds (describes : outline.Describes lines) :
    outline.labels.Binds = Grammar.Binds lines := by
  funext name index
  exact propext describes.find?_eq_some_iff

/-- Statements are encoded as the words that they stand for. -/
theorem forall₂_encode_iff {written : List Statement} {labels : LabelTable} {base : Nat}
    {words : List Word} :
    List.Forall₂ (fun statement word => Statement.encode statement labels base = .ok word)
        written words ↔
      List.Forall₂ (Encodes labels.Binds base) (written.map Statement.written) words := by
  simp only [List.forall₂_map_left_iff, Statement.encode_eq_ok_iff]

/-- An outline is placed as the program that its lines say. -/
theorem Describes.placed_iff (describes : outline.Describes lines) (fine : Fine lines)
    (closed : Closed lines) : outline.Placed capacity program ↔ Yields capacity lines program := by
  constructor
  · intro placed
    have whole := placed.base_add_size
    have encoded := forall₂_encode_iff.mp placed.encoded
    rw [placed.labels, describes.binds, describes.written] at encoded
    rw [describes.size] at whole
    refine ⟨fine.wellFormed closed (by omega), by omega, encoded, ?_⟩
    rw [placed.labels]
    exact describes.labels
  · intro yields
    have fits := yields.wellFormed.fits
    have labels : program.labels = outline.labels :=
      LabelTable.ext fun entry => (yields.labels entry).trans (describes.labels entry).symm
    refine ⟨?_, labels, forall₂_encode_iff.mpr ?_⟩
    · rw [yields.base, describes.size]
      exact Nat.sub_add_cancel fits
    · rw [labels, describes.binds, describes.written]
      exact yields.words

/-- A statement of an outline is one of a line, with those before it on the lines before. -/
theorem Describes.exists_line {front rear : List Statement} {statement : Statement}
    (describes : outline.Describes lines)
    (split : outline.statements.toList = front ++ statement :: rear) :
    ∃ before line behind, lines = before ++ line :: behind ∧
      (parse line).statement = some statement.written ∧ statement.line = before.length + 1 ∧
      front.map Statement.written = SourceLine.statements before := by
  have numbers := describes.statements
  rw [split, List.map_append, List.map_cons] at numbers
  obtain ⟨before, line, behind, whole, stated, number, earlier⟩ :=
    exists_of_numbered numbers.symm
  refine ⟨before, line, behind, whole, stated, number, ?_⟩
  rw [← map_numbered, earlier, List.map_map]
  rfl

theorem Describes.exists_statement {before behind : List (List Char)} {line : List Char}
    {written : List Char × List (List Char)}
    (describes : outline.Describes (before ++ line :: behind))
    (stated : (parse line).statement = some written) :
    ∃ front statement rear, outline.statements.toList = front ++ statement :: rear ∧
      Statement.written statement = written ∧ statement.line = before.length + 1 ∧
      front.map Statement.written = SourceLine.statements before := by
  have numbers := describes.statements
  obtain ⟨later, split⟩ : ∃ later, numbered (before ++ line :: behind) =
      numbered before ++ (before.length + 1, written) :: later := exists_numbered stated
  rw [split] at numbers
  obtain ⟨front, others, whole, earlier, tail⟩ := List.map_eq_append_iff.mp numbers
  obtain ⟨statement, rear, rfl, same, -⟩ := List.map_eq_cons_iff.mp tail
  obtain ⟨number, isWritten⟩ := Prod.mk.inj same
  refine ⟨front, statement, rear, whole, isWritten, number, ?_⟩
  rw [← map_numbered, ← earlier, List.map_map]
  rfl

/-- An outline is refused for its size, or for the first statement that stands for no
word. -/
theorem Describes.place_eq_error_iff (describes : outline.Describes lines) (fine : Fine lines)
    (closed : Closed lines) :
    outline.place capacity = .error error ↔ Refuses capacity lines error := by
  rw [Outline.place_eq_error_iff, describes.size]
  constructor
  · rintro (⟨large, rfl⟩ | ⟨fits, front, statement, rear, words, split, encoded, refused⟩)
    · exact .programTooLarge fine closed large
    · obtain ⟨before, line, behind, isLines, stated, number, earlier⟩ :=
        describes.exists_line split
      have faults := Statement.encode_eq_error_iff.mp refused
      have each := forall₂_encode_iff.mp encoded
      rw [describes.binds, number] at faults
      rw [describes.binds, earlier] at each
      exact .statement (fine.wellFormed closed fits) isLines stated each faults
  · intro refuses
    cases refuses with
    | line split _ offends => exact absurd offends (fine _ _ _ split _)
    | danglingLabel _ dangles => exact absurd closed dangles.not_closed
    | programTooLarge _ _ large => exact .inl ⟨large, rfl⟩
    | @statement before behind line words written error wellFormed split stated each faults =>
        subst split
        obtain ⟨front, statement, rear, whole, rfl, number, earlier⟩ :=
          describes.exists_statement stated
        refine .inr ⟨wellFormed.fits, front, statement, rear, words, whole, ?_, ?_⟩
        · rw [forall₂_encode_iff, describes.binds, earlier]
          exact each
        · rw [Statement.encode_eq_error_iff, describes.binds, number]
          exact faults

end Outline

/-! ## Sources -/

namespace Program

variable {geometry : Geometry} {source : String}

theorem assemble_of_valid (valid : geometry.Valid) (source : String) :
    assemble geometry source = (do
      let outline ← Outline.ofSource source.toList
      outline.place geometry.mainWords) := by
  obtain ⟨checked, accepted⟩ := Geometry.validate_eq_ok_iff.mpr valid
  rw [assemble, accepted]

theorem assemble_eq_ok_iff_yields (valid : geometry.Valid) :
    assemble geometry source = .ok program ↔
      Yields geometry.mainWords (Text.lines source.toList) program := by
  rw [assemble_eq_ok_iff, and_iff_right valid]
  constructor
  · rintro ⟨outline, outlined, placed⟩
    obtain ⟨describes, fine, closed⟩ := Outline.describes_of_ofSource outlined
    exact (describes.placed_iff fine closed).mp placed
  · intro yields
    have fine := yields.wellFormed.fine
    have closed := yields.wellFormed.closed
    obtain ⟨outline, outlined⟩ := Outline.exists_ofSource fine closed
    obtain ⟨describes, -⟩ := Outline.describes_of_ofSource outlined
    exact ⟨outline, outlined, (describes.placed_iff fine closed).mpr yields⟩

/-- A source stands for a program if it is well formed and every statement stands for a
word. -/
theorem exists_yields_iff :
    (∃ program, Yields capacity (Text.lines source.toList) program) ↔
      WellFormed capacity (Text.lines source.toList) ∧
        ∀ written ∈ statements (Text.lines source.toList), ∃ word,
          Encodes (Binds (Text.lines source.toList))
            (capacity - (statements (Text.lines source.toList)).length) written word := by
  rw [← exists_forall₂_iff]
  constructor
  · rintro ⟨program, yields⟩
    have words := yields.words
    rw [yields.base] at words
    exact ⟨yields.wellFormed, program.words, words⟩
  · rintro ⟨wellFormed, words, encoded⟩
    obtain ⟨outline, outlined⟩ := Outline.exists_ofSource wellFormed.fine wellFormed.closed
    obtain ⟨describes, -⟩ := Outline.describes_of_ofSource outlined
    exact ⟨⟨_, words, outline.labels⟩, wellFormed, rfl, encoded, describes.labels⟩

theorem assemble_eq_error_iff (valid : geometry.Valid) :
    assemble geometry source = .error error ↔
      Refuses geometry.mainWords (Text.lines source.toList) error := by
  rw [assemble_of_valid valid]
  cases outlined : Outline.ofSource source.toList with
  | ok outline =>
      obtain ⟨describes, fine, closed⟩ := Outline.describes_of_ofSource outlined
      exact describes.place_eq_error_iff fine closed
  | error refusal =>
      have refused := Outline.ofSource_eq_error_iff.mp outlined
      show Except.error refusal = Except.error error ↔ _
      constructor
      · rintro ⟨⟩
        rcases refused with ⟨before, line, behind, split, fine, offends⟩ |
          ⟨fine, number, label, dangles, rfl⟩
        · exact .line split fine offends
        · exact .danglingLabel fine dangles
      · intro refuses
        have unclosed (fine : Fine (Text.lines source.toList))
            (closed : Closed (Text.lines source.toList)) : False := by
          obtain ⟨outline, made⟩ := Outline.exists_ofSource fine closed
          cases outlined.symm.trans made
        have same : Outline.ofSource source.toList = .error error := by
          cases refuses with
          | line split fine offends =>
              exact Outline.ofSource_eq_error_iff.mpr (.inl ⟨_, _, _, split, fine, offends⟩)
          | danglingLabel fine dangles =>
              exact Outline.ofSource_eq_error_iff.mpr (.inr ⟨fine, _, _, dangles, rfl⟩)
          | programTooLarge fine closed => exact (unclosed fine closed).elim
          | statement wellFormed => exact (unclosed wellFormed.fine wellFormed.closed).elim
        exact congrArg Except.error (Except.error.inj (outlined.symm.trans same))

/-- What a machine that can be built makes of a source.  It is assembled if and only if it
is well formed and every statement stands for a word; the program has those words in order
and binds each label to the number of statements before it.  Any other source is refused
for the error that counts first. -/
theorem assemble_exact (valid : geometry.Valid) (source : String) :
    ((∃ program, assemble geometry source = .ok program) ↔
      WellFormed geometry.mainWords (Text.lines source.toList) ∧
        ∀ written ∈ statements (Text.lines source.toList), ∃ word,
          Encodes (Binds (Text.lines source.toList))
            (geometry.mainWords - (statements (Text.lines source.toList)).length)
            written word) ∧
    (∀ program, assemble geometry source = .ok program ↔
      Yields geometry.mainWords (Text.lines source.toList) program) ∧
    ∀ error, assemble geometry source = .error error ↔
      Refuses geometry.mainWords (Text.lines source.toList) error := by
  refine ⟨?_, fun program => assemble_eq_ok_iff_yields valid, fun error =>
    assemble_eq_error_iff valid⟩
  simp only [assemble_eq_ok_iff_yields valid]
  exact exists_yields_iff

/-- A jump to a label behind it, and a source with three things wrong, of which the mnemonic
counts first although it stands last. -/
theorem assemble_exact_jump :
    Geometry.Valid {} ∧
    Yields 64 (Text.lines "JMP END\nEND: HLT".toList)
      ⟨62, [0x2000000001#40, 0xFF00000000#40], .ofList [("END", 1)]⟩ ∧
    Refuses 64 (Text.lines "LAI\nRND X\nA: FOO".toList) (.unknownMnemonic 3 "FOO") :=
  ⟨Geometry.valid_standard,
    ((assemble_exact Geometry.valid_standard "JMP END\nEND: HLT").2.1 _).mp (by decide +kernel),
    ((assemble_exact Geometry.valid_standard "LAI\nRND X\nA: FOO").2.2 _).mp
      (by decide +kernel)⟩

/-- A label counts before a number even where the number would do and the label does not:
the address of this one does not fit into an operand. -/
theorem assemble_label_spelled_as_number :
    Geometry.Valid { mainWords := 8589934592 } ∧
    WellFormed 8589934592 (Text.lines "1: LAI 1".toList) ∧
    statements (Text.lines "1: LAI 1".toList) = [("LAI".toList, ["1".toList])] ∧
    Directive.ofMnemonic? "LAI".toList = some (.instruction (.wide .lai)) ∧
    Spells (value? (Opcode.operandForm (.wide .lai))) "1".toList 1 ∧
    assemble { mainWords := 8589934592 } "1: LAI 1" =
      .error (.valueOutOfRange 1 "8589934591") := by
  have lines : Text.lines "1: LAI 1".toList = ["1: LAI 1".toList] := by decide +kernel
  have written : statements (Text.lines "1: LAI 1".toList) = [("LAI".toList, ["1".toList])] := by
    decide +kernel
  have asked : Directive.ofMnemonic? "LAI".toList = some (.instruction (.wide .lai)) := by
    decide +kernel
  have closed : Closed ([] ++ ["1: LAI 1".toList]) := closed_concat_of_stated (by decide +kernel)
  refine ⟨by constructor <;> decide, ⟨by decide +kernel, ?_, lines ▸ closed, ?_⟩, written, asked,
    ⟨⟨false, some 1⟩, by decide +kernel, by decide +kernel⟩, by decide +kernel⟩
  · rw [written]
    rintro _ (_ | ⟨_, ⟨⟩⟩)
    exact ⟨_, asked, Nat.le_refl 1⟩
  · rw [written]
    decide

end Program

end BitSerial
