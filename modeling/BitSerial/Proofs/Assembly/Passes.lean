import BitSerial.Assembly
import BitSerial.Proofs.Instruction.Opcodes
import Mathlib.Data.List.Forall2

/-!
# What the two passes keep of a source

The first pass keeps the statements of the source in order and binds every label
to a statement behind it.  The second turns each of them into one word.  Both are
followed line by line, and the result is an exact account of an assembled program.
-/

namespace BitSerial

/-- Mnemonics and operands of the statements in some lines, in order. -/
def SourceLine.statements (lines : List (List Char)) : List (List Char × List (List Char)) :=
  lines.filterMap fun line => (parse line).statement

/-- A statement as it was written, but for the line and upper case. -/
def Statement.written (statement : Statement) : List Char × List (List Char) :=
  (statement.directive.mnemonic.toList, statement.operands)

/-! ## Statements -/

theorem Directive.ofMnemonic_of_mem_all : ∀ opcode ∈ Opcode.all,
    ofMnemonic? opcode.mnemonic.toList = some (.instruction opcode) := by
  decide +kernel

/-- Every directive is asked for by its mnemonic. -/
theorem Directive.ofMnemonic_mnemonic (directive : Directive) :
    ofMnemonic? directive.mnemonic.toList = some directive := by
  cases directive with
  | word => rfl
  | instruction opcode => exact ofMnemonic_of_mem_all opcode opcode.mem_all

theorem Directive.mnemonic_of_ofMnemonic {mnemonic : List Char} {directive : Directive}
    (asked : ofMnemonic? mnemonic = some directive) : directive.mnemonic.toList = mnemonic := by
  rw [ofMnemonic?] at asked
  split at asked
  · rename_i dat
    cases asked
    exact dat.symm
  · obtain ⟨opcode, found, rfl⟩ := Option.map_eq_some_iff.mp asked
    have named := List.find?_some found
    exact of_decide_eq_true named

/-- Mnemonics tell directives apart. -/
theorem Directive.eq_of_mnemonic {left right : Directive}
    (same : left.mnemonic.toList = right.mnemonic.toList) : left = right := by
  have asked := ofMnemonic_mnemonic left
  rw [same, ofMnemonic_mnemonic right] at asked
  exact (Option.some.inj asked).symm

theorem Statement.written_of_ofWords {line : Nat} {mnemonic : List Char}
    {operands : List (List Char)} {statement : Statement}
    (made : ofWords line mnemonic operands = .ok statement) :
    statement.written = (mnemonic, operands) := by
  rw [ofWords] at made
  split at made
  · cases made
  · rename_i directive asked
    split at made
    · cases made
    · cases made
      exact congrArg (·, operands) (Directive.mnemonic_of_ofMnemonic asked)

namespace Outline

/-! ## The first pass -/

/-- What is true of an outline of some lines: it has their statements, and its
labels are bound to statements that it has or, while any is pending, to the next. -/
structure Of (lines : List (List Char)) (outline : Outline) : Prop where
  written : outline.statements.toList.map Statement.written = SourceLine.statements lines
  label_le : ∀ entry ∈ outline.labels.entries, entry.2 ≤ outline.size
  pending : ∀ entry ∈ outline.labels.entries, entry.2 = outline.size → outline.pending ≠ none

theorem of_empty : empty.Of [] where
  written := rfl
  label_le _ member := nomatch member
  pending _ member := nomatch member

variable {lines : List (List Char)} {outline after : Outline}

/-- A label is bound to the statement to come, which makes it pending. -/
theorem Of.addLabel (isOf : outline.Of lines) {number : Nat} {label : String}
    (added : outline.addLabel number label = .ok after) : after.Of lines := by
  rw [Outline.addLabel] at added
  split at added
  · cases added
  · cases added
    constructor
    · exact isOf.written
    · intro entry member
      rcases LabelTable.mem_insertEntry member with rfl | older
      · exact Nat.le_refl _
      · exact isOf.label_le entry older
    · intro entry _ _
      cases outline.pending <;> exact Option.some_ne_none _

/-- A statement takes the place that pending labels are bound to. -/
theorem Of.addStatement (isOf : outline.Of lines) {line : List Char} {statement : Statement}
    (parsed : (SourceLine.parse line).statement = some statement.written) :
    (outline.addStatement statement).Of (lines ++ [line]) where
  written := by
    rw [SourceLine.statements, List.filterMap_append, ← SourceLine.statements, ← isOf.written,
      Outline.addStatement, Array.toList_push, List.map_append]
    simp [parsed]
  label_le entry member := by
    rw [Outline.addStatement, size, Array.size_push]
    exact Nat.le_succ_of_le (isOf.label_le entry member)
  pending entry member last := by
    rw [Outline.addStatement, size, Array.size_push] at last
    have bound := isOf.label_le entry member
    rw [last] at bound
    exact absurd bound (Nat.not_succ_le_self _)

/-- A line without a statement adds none. -/
theorem Of.skip (isOf : outline.Of lines) {line : List Char}
    (parsed : (SourceLine.parse line).statement = none) : outline.Of (lines ++ [line]) :=
  { isOf with
    written := by
      rw [isOf.written, SourceLine.statements, SourceLine.statements, List.filterMap_append]
      simp [parsed] }

/-- What comes after the label of a line is taken in as a line of its own. -/
theorem addLine_of_label {number : Nat} {line : SourceLine} {label : List Char}
    (named : line.label = some label) (added : outline.addLine number line = .ok after) :
    ∃ labelled, outline.addLabel number (String.ofList label) = .ok labelled ∧
      labelled.addLine number ⟨none, line.statement⟩ = .ok after := by
  rw [addLine, named] at added
  dsimp only at added
  cases labelled : outline.addLabel number (String.ofList label) with
  | error error =>
      rw [labelled] at added
      cases added
  | ok labelledOutline =>
      rw [labelled] at added
      exact ⟨labelledOutline, rfl, added⟩

/-- It is nothing, or it is a statement that is appended. -/
theorem addLine_rest {number : Nat} {written : Option (List Char × List (List Char))}
    (added : outline.addLine number ⟨none, written⟩ = .ok after) :
    (written = none ∧ after = outline) ∨
      ∃ statement : Statement, written = some statement.written ∧
        after = outline.addStatement statement := by
  cases written with
  | none =>
      cases added
      exact .inl ⟨rfl, rfl⟩
  | some pair =>
      rw [addLine] at added
      cases made : Statement.ofWords number pair.1 pair.2 with
      | error error =>
          simp only [made] at added
          cases added
      | ok statement =>
          simp only [made] at added
          cases added
          exact .inr ⟨statement, congrArg some (Statement.written_of_ofWords made).symm, rfl⟩

theorem Of.addRest (isOf : outline.Of lines) {number : Nat} {line : List Char}
    (added : outline.addLine number ⟨none, (SourceLine.parse line).statement⟩ = .ok after) :
    after.Of (lines ++ [line]) := by
  rcases addLine_rest added with ⟨parsed, rfl⟩ | ⟨statement, parsed, rfl⟩
  · exact isOf.skip parsed
  · exact isOf.addStatement parsed

theorem Of.addLine (isOf : outline.Of lines) {number : Nat} {line : List Char}
    (added : outline.addLine number (SourceLine.parse line) = .ok after) :
    after.Of (lines ++ [line]) := by
  cases named : (SourceLine.parse line).label with
  | none =>
      rw [Outline.addLine, named] at added
      exact isOf.addRest added
  | some label =>
      obtain ⟨labelled, bound, rest⟩ := addLine_of_label named added
      exact (isOf.addLabel bound).addRest rest

theorem Of.addLines (isOf : outline.Of lines) {number : Nat} {more : List (List Char)}
    (added : outline.addLines number more = .ok after) : after.Of (lines ++ more) := by
  induction more generalizing number lines outline with
  | nil =>
      cases added
      rwa [List.append_nil]
  | cons line more ih =>
      rw [Outline.addLines] at added
      cases next : outline.addLine number (SourceLine.parse line) with
      | error error =>
          rw [next] at added
          cases added
      | ok outline =>
          rw [next] at added
          have done := ih (isOf.addLine next) added
          rwa [List.append_assoc] at done

/-- A source has an outline if its lines have one that leaves no label pending. -/
theorem ofSource_eq_ok_iff {source : List Char} :
    ofSource source = .ok outline ↔
      addLines 1 (Text.lines source) empty = .ok outline ∧ outline.pending = none := by
  rw [ofSource]
  cases addLines 1 (Text.lines source) empty with
  | error error => simp
  | ok whole =>
      dsimp only
      rw [Except.ok.injEq]
      cases pending : whole.pending with
      | none =>
          rw [Except.ok.injEq]
          constructor
          · rintro rfl
            exact ⟨rfl, pending⟩
          · exact And.left
      | some label =>
          constructor
          · intro outlined
            cases outlined
          · rintro ⟨rfl, settled⟩
            rw [pending] at settled
            cases settled

/-- The outline of a source has its statements, and every label is bound to one of
them. -/
theorem of_ofSource {source : List Char} (outlined : ofSource source = .ok outline) :
    outline.statements.toList.map Statement.written = SourceLine.statements (Text.lines source) ∧
      ∀ entry ∈ outline.labels.entries, entry.2 < outline.size := by
  obtain ⟨added, settled⟩ := ofSource_eq_ok_iff.mp outlined
  have isOf := of_empty.addLines added
  refine ⟨isOf.written, ?_⟩
  intro entry member
  have apart : entry.2 ≠ outline.size := fun last => isOf.pending entry member last settled
  exact Nat.lt_of_le_of_ne (isOf.label_le entry member) apart

end Outline

/-! ## The second pass -/

/-- A mapping succeeds if it does so on every item. -/
theorem mapM_eq_ok_iff {α β ε : Type} {change : α → Except ε β} {items : List α}
    {results : List β} :
    items.mapM change = .ok results ↔
      List.Forall₂ (fun item result => change item = .ok result) items results := by
  constructor
  · intro mapped
    induction items generalizing results with
    | nil =>
        cases mapped
        exact .nil
    | cons item rest ih =>
        rw [List.mapM_cons] at mapped
        cases first : change item with
        | error error =>
            rw [first] at mapped
            cases mapped
        | ok result =>
            rw [first] at mapped
            cases others : rest.mapM change with
            | error error =>
                rw [others] at mapped
                cases mapped
            | ok results =>
                rw [others] at mapped
                cases mapped
                exact .cons first (ih others)
  · intro each
    induction each with
    | nil => rfl
    | cons first _ others =>
        rw [List.mapM_cons, first, others]
        rfl

namespace Statement

variable {statement : Statement} {labels : LabelTable} {base : Nat}

/-- The word of an instruction is its opcode byte above its operand field. -/
theorem operandField_of_encode {opcode : Opcode} {word : Word}
    (directive : statement.directive = .instruction opcode)
    (encoded : statement.encode labels base = .ok word) :
    ∃ operand, statement.operandField labels base opcode.operandForm = .ok operand ∧
      word = Word.ofParts opcode.byte operand := by
  rw [encode, directive] at encoded
  dsimp only at encoded
  cases field : statement.operandField labels base opcode.operandForm with
  | error error =>
      rw [field] at encoded
      cases encoded
  | ok operand =>
      rw [field] at encoded
      cases encoded
      exact ⟨operand, rfl, rfl⟩

/-- A label counts before a number that is spelled alike, and fits its field. -/
theorem toNat_of_resolve {origin index : Nat} {text : List Char} {operand : Operand}
    (bound : labels.find? (String.ofList text) = some index)
    (resolved : statement.resolve labels origin text = .ok operand) :
    operand.toNat = origin + index := by
  rw [resolve, bound] at resolved
  dsimp only at resolved
  split at resolved
  · rename_i fits
    cases resolved
    rw [BitVec.toNat_ofNat]
    exact Nat.mod_eq_of_lt fits
  · cases resolved

end Statement

namespace Program

/-- What is true of a program assembled from some lines for a main memory: it ends
where memory ends, its labels are inside it, and each word encodes a statement. -/
structure Of (lines : List (List Char)) (capacity : Nat) (program : Program) : Prop where
  base_add_size : program.base + program.size = capacity
  label_lt : ∀ entry ∈ program.labels.entries, entry.2 < program.size
  encoded : List.Forall₂
    (fun written word => ∃ statement : Statement, statement.written = written ∧
      statement.encode program.labels program.base = .ok word)
    (SourceLine.statements lines) program.words

end Program

namespace Outline

variable {capacity : Nat} {outline : Outline} {program : Program}

/-- What a program is to the outline that it was made from. -/
structure Placed (capacity : Nat) (outline : Outline) (program : Program) : Prop where
  base_add_size : program.base + outline.size = capacity
  labels : program.labels = outline.labels
  encoded : List.Forall₂
    (fun statement word => Statement.encode statement program.labels program.base = .ok word)
    outline.statements.toList program.words

theorem Placed.size {outline : Outline} (placed : outline.Placed capacity program) :
    program.size = outline.size :=
  placed.encoded.length_eq.symm.trans (by simp [Outline.size])

/-- An outline that fits is placed at the end, one word for each statement. -/
theorem place_eq_ok_iff :
    outline.place capacity = .ok program ↔ outline.Placed capacity program := by
  rw [place]
  constructor
  · intro placed
    split at placed
    · cases placed
    · rename_i fits
      dsimp only at placed
      cases mapped : outline.statements.toList.mapM fun statement =>
          statement.encode outline.labels (capacity - outline.size) with
      | error error =>
          rw [mapped] at placed
          cases placed
      | ok words =>
          rw [mapped] at placed
          cases placed
          exact ⟨Nat.sub_add_cancel (Nat.le_of_not_lt fits), rfl, mapM_eq_ok_iff.mp mapped⟩
  · rintro ⟨whole, labels, encoded⟩
    have fits : ¬ capacity < outline.size := by omega
    have base : capacity - outline.size = program.base := by omega
    rw [if_neg fits, base, ← labels]
    dsimp only
    rw [mapM_eq_ok_iff.mpr encoded]
    rfl

end Outline

namespace Program

theorem of_placed {lines : List (List Char)} {capacity : Nat} {outline : Outline}
    {program : Program}
    (written : outline.statements.toList.map Statement.written = SourceLine.statements lines)
    (labels : ∀ entry ∈ outline.labels.entries, entry.2 < outline.size)
    (placed : outline.Placed capacity program) : program.Of lines capacity where
  base_add_size := by
    rw [placed.size]
    exact placed.base_add_size
  label_lt := by
    rw [placed.size, placed.labels]
    exact labels
  encoded := by
    rw [← written, List.forall₂_map_left_iff]
    exact placed.encoded.imp fun statement word isWord => ⟨statement, rfl, isWord⟩

/-- A source is assembled if the machine can be built and the source has an outline
that can be placed. -/
theorem assemble_eq_ok_iff {geometry : Geometry} {source : String} {program : Program} :
    assemble geometry source = .ok program ↔
      geometry.Valid ∧ ∃ outline, Outline.ofSource source.toList = .ok outline ∧
        outline.Placed geometry.mainWords program := by
  rw [assemble]
  cases checked : geometry.validate with
  | error error =>
      have invalid : ¬ geometry.Valid := by
        rw [← Geometry.validate_eq_ok_iff, checked]
        rintro ⟨_, accepted⟩
        cases accepted
      simp [invalid]
  | ok valid =>
      cases Outline.ofSource source.toList with
      | error error => simp [bind, Except.bind]
      | ok outline => simp [bind, Except.bind, valid.down, Outline.place_eq_ok_iff]

theorem of_assemble {geometry : Geometry} {source : String} {program : Program}
    (assembled : assemble geometry source = .ok program) :
    program.Of (Text.lines source.toList) geometry.mainWords := by
  obtain ⟨-, outline, outlined, placed⟩ := assemble_eq_ok_iff.mp assembled
  obtain ⟨written, labels⟩ := Outline.of_ofSource outlined
  exact of_placed written labels placed

end Program

end BitSerial
