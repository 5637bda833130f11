import BitSerial.Proofs.Assembly.Grammar
import BitSerial.Proofs.Assembly.LabelTables

/-!
# The first pass

The first pass goes on as long as no line offends, and keeps what the lines so far say:
their statements with their numbers, the indices that names are bound to, and the first
label that no statement follows.
-/

namespace BitSerial

/-! ## What the pass keeps -/

namespace Statement

theorem line_of_ofWords {line : Nat} {mnemonic : List Char} {operands : List (List Char)}
    {statement : Statement} (made : ofWords line mnemonic operands = .ok statement) :
    statement.line = line := by
  rw [ofWords] at made
  split at made
  · cases made
  · split at made
    · cases made
    · cases made
      rfl

/-- Words are refused as a statement for their mnemonic or for an operand too many. -/
theorem ofWords_eq_error_iff {line : Nat} {mnemonic : List Char} {operands : List (List Char)}
    {error : AssemblyError} :
    ofWords line mnemonic operands = .error error ↔
      (Directive.ofMnemonic? mnemonic = none ∧
        error = .unknownMnemonic line (String.ofList mnemonic)) ∨
      ∃ directive extra, Directive.ofMnemonic? mnemonic = some directive ∧
        operands[directive.arity]? = some extra ∧
        error = .unexpectedOperand line (String.ofList mnemonic) (String.ofList extra) := by
  rw [ofWords]
  cases Directive.ofMnemonic? mnemonic with
  | none => simp [eq_comm]
  | some directive =>
      by_cases excess : directive.arity < operands.length
      · simp [excess, eq_comm]
      · simp [excess]

end Statement

namespace Outline

open Grammar
open SourceLine (parse statements)

variable {outline after labelled : Outline} {lines : List (List Char)} {line : List Char}
  {error : AssemblyError}

/-- An outline keeps what some lines say. -/
structure Describes (outline : Outline) (lines : List (List Char)) : Prop where
  statements : outline.statements.toList.map
      (fun statement => (statement.line, statement.written)) = numbered lines
  labels : ∀ entry, entry ∈ outline.labels.entries ↔ Binds lines entry.1.toList entry.2
  closed : outline.pending = none → Closed lines
  dangles : ∀ number name, outline.pending = some (number, name) →
    Dangles lines number name.toList

theorem Describes.written (describes : outline.Describes lines) :
    outline.statements.toList.map Statement.written = SourceLine.statements lines := by
  rw [← map_numbered, ← describes.statements, List.map_map]
  rfl

theorem Describes.size (describes : outline.Describes lines) :
    outline.size = (SourceLine.statements lines).length := by
  rw [← describes.written, List.length_map, Array.length_toList, Outline.size]

theorem Describes.find?_eq_some_iff (describes : outline.Describes lines) {name : List Char}
    {index : Nat} :
    outline.labels.find? (String.ofList name) = some index ↔ Binds lines name index := by
  rw [LabelTable.find?_eq_some_iff, describes.labels, String.toList_ofList]

theorem describes_empty : empty.Describes [] where
  statements := rfl
  labels entry := by
    constructor
    · rintro ⟨⟩
    · rintro ⟨before, line, behind, split, -⟩
      exact absurd split (by simp)
  closed _ before line behind split := absurd split (by simp)
  dangles _ _ pending := nomatch pending

/-- Take in the label of a line, if it has one. -/
def enter (number : Nat) (label : Option (List Char)) (outline : Outline) :
    Except AssemblyError Outline :=
  match label with
  | none => .ok outline
  | some label => outline.addLabel number (String.ofList label)

theorem addLine_eq (number : Nat) (line : SourceLine) :
    outline.addLine number line =
      match outline.enter number line.label with
      | .error error => .error error
      | .ok labelled =>
          match line.statement with
          | none => .ok labelled
          | some (mnemonic, operands) =>
              (Statement.ofWords number mnemonic operands).map labelled.addStatement := by
  have stated (labelled : Outline) :
      (match line.statement with
        | none => pure labelled
        | some (mnemonic, operands) => do
            let statement ← Statement.ofWords number mnemonic operands
            return labelled.addStatement statement : Except AssemblyError Outline) =
        match line.statement with
        | none => .ok labelled
        | some (mnemonic, operands) =>
            (Statement.ofWords number mnemonic operands).map labelled.addStatement := by
    cases line.statement with
    | none => rfl
    | some written => cases Statement.ofWords number written.1 written.2 <;> rfl
  cases named : line.label with
  | none =>
      rw [addLine, named]
      exact stated outline
  | some label =>
      rw [addLine, named, enter]
      dsimp only
      cases outline.addLabel number (String.ofList label) with
      | error error => rfl
      | ok labelled => exact stated labelled

/-- What is kept of a line once its label is taken in. -/
structure Enters (outline : Outline) (lines : List (List Char)) (line : List Char)
    (labelled : Outline) : Prop where
  statements : labelled.statements = outline.statements
  labels : ∀ entry, entry ∈ labelled.labels.entries ↔
    Binds (lines ++ [line]) entry.1.toList entry.2
  pending : labelled.pending = (outline.pending <|>
    (parse line).label.map fun label => (lines.length + 1, String.ofList label))

theorem Describes.enters (describes : outline.Describes lines)
    (entered : outline.enter (lines.length + 1) (parse line).label = .ok labelled) :
    outline.Enters lines line labelled := by
  cases named : (parse line).label with
  | none =>
      rw [named] at entered
      cases entered
      refine ⟨rfl, ?_, ?_⟩
      · intro entry
        rw [describes.labels, binds_concat, named]
        simp
      · rw [named]
        cases outline.pending <;> rfl
  | some label =>
      rw [named, enter, addLabel] at entered
      split at entered
      · cases entered
      · rename_i fresh
        cases entered
        refine ⟨rfl, ?_, ?_⟩
        · intro entry
          have same : entry.1 = String.ofList label ↔ label = entry.1.toList :=
            ⟨fun same => same ▸ String.toList_ofList.symm,
              fun same => same ▸ String.ofList_toList.symm⟩
          rw [LabelTable.mem_insert_iff fresh, describes.labels, binds_concat, named,
            describes.size, or_comm, Prod.ext_iff, Option.some_inj, same]
        · rw [named]
          rfl

theorem Describes.enter_eq_error_iff (describes : outline.Describes lines) :
    outline.enter (lines.length + 1) (parse line).label = .error error ↔
      ∃ label, (parse line).label = some label ∧ label ∈ Grammar.labels lines ∧
        error = .duplicateLabel (lines.length + 1) (String.ofList label) := by
  cases (parse line).label with
  | none => simp [enter]
  | some label =>
      rw [enter, addLabel]
      cases found : outline.labels.find? (String.ofList label) with
      | some index =>
          have again : label ∈ Grammar.labels lines :=
            mem_labels_iff.mpr ⟨index, describes.find?_eq_some_iff.mp found⟩
          simp [again, eq_comm]
      | none =>
          have fresh : label ∉ Grammar.labels lines := by
            intro again
            obtain ⟨index, bound⟩ := mem_labels_iff.mp again
            cases found.symm.trans (describes.find?_eq_some_iff.mpr bound)
          simp [fresh]

/-- A line without a statement leaves its label, if any, to be closed. -/
theorem Enters.describes_of_unstated (enters : outline.Enters lines line labelled)
    (describes : outline.Describes lines) (unstated : (parse line).statement = none) :
    labelled.Describes (lines ++ [line]) where
  statements := by
    rw [enters.statements, describes.statements, numbered_concat, unstated]
    exact (List.append_nil _).symm
  labels := enters.labels
  closed nothing := by
    rw [enters.pending, Option.orElse_eq_orElse, Option.orElse_eq_or, Option.or_eq_none_iff,
      Option.map_eq_none_iff] at nothing
    exact closed_concat_of_unlabelled (describes.closed nothing.1) nothing.2
  dangles number name pending := by
    rw [enters.pending] at pending
    cases older : outline.pending with
    | some first =>
        rw [older] at pending
        cases pending
        exact (describes.dangles number name older).concat unstated
    | none =>
        rw [older] at pending
        obtain ⟨label, labelled, same⟩ := Option.map_eq_some_iff.mp pending
        cases same
        rw [String.toList_ofList]
        exact dangles_concat (describes.closed older) labelled unstated

/-- A statement is put behind those that are there, and closes every label. -/
theorem Enters.describes_of_stated {statement : Statement}
    (enters : outline.Enters lines line labelled) (describes : outline.Describes lines)
    (stated : (parse line).statement = some statement.written)
    (number : statement.line = lines.length + 1) :
    (labelled.addStatement statement).Describes (lines ++ [line]) where
  statements := by
    rw [addStatement, Array.toList_push, enters.statements, List.map_append, describes.statements,
      numbered_concat, stated, List.map_singleton, number]
    rfl
  labels := enters.labels
  closed _ := closed_concat_of_stated (by simp [stated])
  dangles number name pending := by
    cases pending

/-- A line is taken in with its statement and its label. -/
theorem Describes.addLine (describes : outline.Describes lines)
    (added : outline.addLine (lines.length + 1) (parse line) = .ok after) :
    after.Describes (lines ++ [line]) := by
  rw [addLine_eq] at added
  cases entered : outline.enter (lines.length + 1) (parse line).label with
  | error error =>
      rw [entered] at added
      cases added
  | ok labelled =>
      have enters := describes.enters entered
      rw [entered] at added
      dsimp only at added
      cases stated : (parse line).statement with
      | none =>
          rw [stated] at added
          cases added
          exact enters.describes_of_unstated describes stated
      | some written =>
          rw [stated] at added
          obtain ⟨mnemonic, operands⟩ := written
          dsimp only at added
          cases made : Statement.ofWords (lines.length + 1) mnemonic operands with
          | error error =>
              rw [made] at added
              cases added
          | ok statement =>
              rw [made] at added
              cases added
              rw [← Statement.written_of_ofWords made] at stated
              exact enters.describes_of_stated describes stated (Statement.line_of_ofWords made)

/-- What is wrong with a line behind its label is what is wrong with its statement. -/
theorem offends_iff_of_fresh
    (fresh : ∀ label, (parse line).label = some label → label ∉ Grammar.labels lines) :
    Offends lines line error ↔ ∃ mnemonic operands,
      (parse line).statement = some (mnemonic, operands) ∧
        Statement.ofWords (lines.length + 1) mnemonic operands = .error error := by
  constructor
  · intro offends
    cases offends with
    | duplicateLabel labelled again => exact absurd again (fresh _ labelled)
    | unknownMnemonic _ stated unknown =>
        exact ⟨_, _, stated, Statement.ofWords_eq_error_iff.mpr (.inl ⟨unknown, rfl⟩)⟩
    | unexpectedOperand _ stated asked surplus =>
        exact ⟨_, _, stated,
          Statement.ofWords_eq_error_iff.mpr (.inr ⟨_, _, asked, surplus, rfl⟩)⟩
  · rintro ⟨mnemonic, operands, stated, refused⟩
    rcases Statement.ofWords_eq_error_iff.mp refused with
      ⟨unknown, rfl⟩ | ⟨directive, extra, asked, surplus, rfl⟩
    · exact .unknownMnemonic fresh stated unknown
    · exact .unexpectedOperand fresh stated asked surplus

/-- A line is refused if and only if it offends. -/
theorem Describes.addLine_eq_error_iff (describes : outline.Describes lines) :
    outline.addLine (lines.length + 1) (parse line) = .error error ↔
      Offends lines line error := by
  rw [addLine_eq]
  cases entered : outline.enter (lines.length + 1) (parse line).label with
  | error refusal =>
      obtain ⟨label, labelled, again, rfl⟩ := describes.enter_eq_error_iff.mp entered
      rw [offends_iff_of_again labelled again, Except.error.injEq, eq_comm]
  | ok labelled =>
      have fresh (label) (labelled : (parse line).label = some label) :
          label ∉ Grammar.labels lines := by
        intro again
        have refused := describes.enter_eq_error_iff.mpr ⟨label, labelled, again, rfl⟩
        cases entered.symm.trans refused
      rw [offends_iff_of_fresh fresh]
      cases (parse line).statement with
      | none => simp
      | some written =>
          obtain ⟨mnemonic, operands⟩ := written
          cases made : Statement.ofWords (lines.length + 1) mnemonic operands <;>
            simp [made, Except.map]

theorem Describes.inoffensive (describes : outline.Describes lines)
    (added : outline.addLine (lines.length + 1) (parse line) = .ok after)
    (error : AssemblyError) : ¬Offends lines line error := by
  intro offends
  cases added.symm.trans (describes.addLine_eq_error_iff.mpr offends)

/-! ## The pass as a whole -/

/-- Lines that are all taken in are fine. -/
theorem Describes.addLines {more : List (List Char)} (describes : outline.Describes lines)
    (fine : Fine lines) (added : outline.addLines (lines.length + 1) more = .ok after) :
    after.Describes (lines ++ more) ∧ Fine (lines ++ more) := by
  induction more generalizing lines outline with
  | nil =>
      cases added
      rw [List.append_nil]
      exact ⟨describes, fine⟩
  | cons line more ih =>
      rw [Outline.addLines] at added
      cases next : outline.addLine (lines.length + 1) (parse line) with
      | error refusal =>
          rw [next] at added
          cases added
      | ok outline =>
          rw [next] at added
          have inoffensive := describes.inoffensive next
          have described := ih (describes.addLine next) (fine_concat.mpr ⟨fine, inoffensive⟩)
            (by rwa [List.length_append, List.length_singleton])
          rwa [List.append_assoc] at described

/-- The first line that offends says why lines are not all taken in. -/
theorem Describes.addLines_eq_error_iff {more : List (List Char)}
    (describes : outline.Describes lines) (fine : Fine lines) :
    outline.addLines (lines.length + 1) more = .error error ↔
      ∃ before line behind, more = before ++ line :: behind ∧ Fine (lines ++ before) ∧
        Offends (lines ++ before) line error := by
  induction more generalizing lines outline with
  | nil =>
      constructor
      · rintro ⟨⟩
      · rintro ⟨before, line, behind, split, -⟩
        exact absurd split (by simp)
  | cons line more ih =>
      rw [Outline.addLines]
      cases added : outline.addLine (lines.length + 1) (parse line) with
      | error refusal =>
          have offends := describes.addLine_eq_error_iff.mp added
          rw [Except.error.injEq]
          constructor
          · rintro rfl
            exact ⟨[], line, more, rfl, by rwa [List.append_nil], by rwa [List.append_nil]⟩
          · rintro ⟨before, found, behind, split, fineBefore, also⟩
            rcases List.append_eq_cons_iff.mp split.symm with ⟨rfl, tail⟩ | ⟨later, rfl, -⟩
            · cases tail
              rw [List.append_nil] at also
              exact Except.error.inj (added.symm.trans (describes.addLine_eq_error_iff.mpr also))
            · exact absurd offends (fineBefore lines line later rfl refusal)
      | ok after =>
          have inoffensive := describes.inoffensive added
          have rest := ih (describes.addLine added) (fine_concat.mpr ⟨fine, inoffensive⟩)
          rw [List.length_append, List.length_singleton] at rest
          dsimp only
          rw [rest]
          constructor
          · rintro ⟨before, found, behind, rfl, fineBefore, offends⟩
            rw [List.append_assoc] at fineBefore offends
            exact ⟨line :: before, found, behind, rfl, fineBefore, offends⟩
          · rintro ⟨before, found, behind, split, fineBefore, offends⟩
            rcases List.append_eq_cons_iff.mp split.symm with ⟨rfl, tail⟩ | ⟨later, rfl, rfl⟩
            · cases tail
              rw [List.append_nil] at offends
              exact absurd offends (inoffensive error)
            · refine ⟨later, found, behind, rfl, ?_, ?_⟩
              · rwa [List.append_assoc]
              · rwa [List.append_assoc]

theorem describes_of_ofSource {source : List Char} (outlined : ofSource source = .ok outline) :
    outline.Describes (Text.lines source) ∧ Fine (Text.lines source) ∧
      Closed (Text.lines source) := by
  obtain ⟨added, settled⟩ := ofSource_eq_ok_iff.mp outlined
  obtain ⟨describes, fine⟩ := describes_empty.addLines fine_nil added
  exact ⟨describes, fine, describes.closed settled⟩

/-- A source has no outline because of the first line that offends or, if there is none,
because of the first label that dangles. -/
theorem ofSource_eq_error_iff {source : List Char} :
    ofSource source = .error error ↔
      (∃ before line behind, Text.lines source = before ++ line :: behind ∧ Fine before ∧
        Offends before line error) ∨
      Fine (Text.lines source) ∧ ∃ number label, Dangles (Text.lines source) number label ∧
        error = .danglingLabel number (String.ofList label) := by
  have refused {error : AssemblyError} : empty.addLines 1 (Text.lines source) = .error error ↔
      ∃ before line behind, Text.lines source = before ++ line :: behind ∧ Fine before ∧
        Offends before line error := describes_empty.addLines_eq_error_iff fine_nil
  rw [← refused, ofSource]
  cases added : addLines 1 (Text.lines source) empty with
  | error refusal =>
      obtain ⟨before, line, behind, split, -, offends⟩ := refused.mp added
      constructor
      · exact .inl
      · rintro (same | ⟨fine, -⟩)
        · exact same
        · exact absurd offends (fine before line behind split refusal)
  | ok outline =>
      obtain ⟨describes, fine⟩ := describes_empty.addLines fine_nil added
      dsimp only
      cases pending : outline.pending with
      | none =>
          constructor
          · rintro ⟨⟩
          · rintro (⟨⟨⟩⟩ | ⟨-, number, label, dangles, -⟩)
            exact absurd (describes.closed pending) dangles.not_closed
      | some first =>
          obtain ⟨number, label⟩ := first
          have dangles := describes.dangles number label pending
          dsimp only
          rw [Except.error.injEq]
          constructor
          · rintro rfl
            exact .inr ⟨fine, number, label.toList, dangles, by rw [String.ofList_toList]⟩
          · rintro (⟨⟨⟩⟩ | ⟨-, other, name, also, rfl⟩)
            obtain ⟨rfl, rfl⟩ := dangles.unique also
            rw [String.ofList_toList]

/-- A source whose lines are fine and whose labels are followed by statements has an
outline. -/
theorem exists_ofSource {source : List Char} (fine : Fine (Text.lines source))
    (closed : Closed (Text.lines source)) : ∃ outline, ofSource source = .ok outline := by
  cases outlined : ofSource source with
  | ok outline => exact ⟨outline, rfl⟩
  | error error =>
      rcases ofSource_eq_error_iff.mp outlined with ⟨before, line, behind, split, -, offends⟩ |
        ⟨-, number, label, dangles, -⟩
      · exact absurd offends (fine before line behind split error)
      · exact absurd closed dangles.not_closed

end Outline

end BitSerial
