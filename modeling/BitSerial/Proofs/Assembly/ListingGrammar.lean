import BitSerial.Proofs.Assembly.Alikeness
import BitSerial.Proofs.Assembly.ListingText

/-!
# What a listing says

A listing whose labels can be read has the statements of its words, and binds each label of a
word to the index of that word.  A label can stand where a number was meant; the statement is
refused for it only if the address of the label is too large for an operand.
-/

namespace BitSerial

open Grammar
open SourceLine (parse statements)

/-! ## Lines without statements -/

/-- Where no statement stands, labels are bound to the first one to come. -/
theorem Grammar.binds_of_unstated {lines : List (List Char)} {name : List Char} {index : Nat}
    (unstated : statements lines = []) :
    Binds lines name index ↔ name ∈ labels lines ∧ index = 0 := by
  have first {index : Nat} (binds : Binds lines name index) : index = 0 := by
    obtain ⟨before, line, behind, rfl, -, rfl⟩ := binds
    rw [statements_append, List.append_eq_nil_iff] at unstated
    rw [unstated.1]
    rfl
  rw [mem_labels_iff]
  constructor
  · intro binds
    exact ⟨⟨index, binds⟩, first binds⟩
  · rintro ⟨⟨other, binds⟩, rfl⟩
    rwa [first binds] at binds

namespace Listing

variable {program : Program} {name : List Char} {index later : Nat}

theorem statements_headingTexts (program : Program) : statements (headingTexts program) = [] := by
  rw [statements, List.filterMap_eq_nil_iff]
  intro line member
  rw [parse_of_mem_headingTexts line member]

theorem labels_headingTexts (program : Program) : labels (headingTexts program) = [] := by
  rw [labels, List.filterMap_eq_nil_iff]
  intro line member
  rw [parse_of_mem_headingTexts line member]

section LabelTexts

variable {names : List String} (isLabel : ∀ name ∈ names, SourceLine.IsLabel name.toList)
include isLabel

theorem statements_labelTexts : statements (names.map labelText) = [] := by
  rw [statements, List.filterMap_eq_nil_iff]
  intro line member
  obtain ⟨name, named, rfl⟩ := List.mem_map.mp member
  rw [parse_labelText (isLabel name named)]

theorem labels_labelTexts : labels (names.map labelText) = names.map String.toList := by
  rw [labels, List.filterMap_map, ← List.filterMap_eq_map]
  apply List.filterMap_congr
  intro name named
  rw [Function.comp_apply, parse_labelText (isLabel name named)]
  rfl

theorem binds_labelTexts :
    Binds (names.map labelText) name index ↔ String.ofList name ∈ names ∧ index = 0 := by
  rw [binds_of_unstated (statements_labelTexts isLabel), labels_labelTexts isLabel, List.mem_map]
  constructor
  · rintro ⟨⟨label, named, rfl⟩, rfl⟩
    exact ⟨String.ofList_toList.symm ▸ named, rfl⟩
  · rintro ⟨named, rfl⟩
    exact ⟨⟨_, named, String.toList_ofList⟩, rfl⟩

end LabelTexts

/-! ## Words and their labels -/

section Lines

variable (isLabel : ∀ entry ∈ program.labels.entries, SourceLine.IsLabel entry.1.toList)
include isLabel

theorem isLabel_of_mem_labelsAt (index : Nat) :
    ∀ name ∈ program.labelsAt index, SourceLine.IsLabel name.toList :=
  fun _ named => isLabel _ (LabelTable.mem_namesAt.mp named)

theorem statements_bodyTexts (index : Nat) (words : List Word) :
    statements (bodyTexts program index words) =
      words.map fun word => (word.statement 0).written := by
  induction words generalizing index with
  | nil => rfl
  | cons word rest ih =>
      rw [bodyTexts, statements_append,
        statements_labelTexts (isLabel_of_mem_labelsAt isLabel index), List.nil_append,
        ← List.singleton_append, statements_append, statements_singleton,
        parse_wordText _ _ _ 0, ih]
      rfl

/-- A label of a word is bound to the word's index. -/
theorem binds_bodyTexts (index : Nat) (words : List Word) :
    Binds (bodyTexts program index words) name later ↔
      (String.ofList name, index + later) ∈ program.labels.entries ∧ later < words.length := by
  induction words generalizing index later with
  | nil => exact iff_of_false not_binds_nil fun inside => Nat.not_lt_zero _ inside.2
  | cons word rest ih =>
      have names := isLabel_of_mem_labelsAt isLabel index
      rw [bodyTexts, ← List.singleton_append, binds_append, binds_labelTexts names,
        statements_labelTexts names, Program.labelsAt, LabelTable.mem_namesAt]
      simp only [binds_append, binds_singleton, statements_singleton, parse_wordText _ _ _ 0, ih,
        reduceCtorEq, false_and, false_or, Option.toList_some,
        List.length_nil, Nat.zero_add, List.length_cons]
      constructor
      · rintro (⟨listed, rfl⟩ | ⟨_, ⟨later, ⟨listed, inside⟩, rfl⟩, rfl⟩)
        · exact ⟨listed, Nat.zero_lt_succ _⟩
        · rw [Nat.add_assoc] at listed
          exact ⟨listed, by omega⟩
      · rintro ⟨listed, inside⟩
        cases later with
        | zero => exact .inl ⟨listed, rfl⟩
        | succ later =>
            rw [Nat.add_comm later, ← Nat.add_assoc] at listed
            exact .inr ⟨_, ⟨later, ⟨listed, Nat.lt_of_succ_lt_succ inside⟩, rfl⟩, Nat.add_comm _ _⟩

theorem nodup_labels_bodyTexts (index : Nat) (words : List Word) :
    (labels (bodyTexts program index words)).Nodup := by
  induction words generalizing index with
  | nil => exact List.nodup_nil
  | cons word rest ih =>
      have names := isLabel_of_mem_labelsAt isLabel index
      rw [bodyTexts, ← List.singleton_append, labels_append, labels_append,
        labels_labelTexts names, labels_singleton, parse_wordText _ _ _ 0]
      have distinct := program.labels.nodup_namesAt index
      refine List.nodup_append.mpr ⟨?_, ih (index + 1), ?_⟩
      · exact distinct.map fun _ _ => String.toList_inj.mp
      · rintro _ member label behind rfl
        obtain ⟨name, named, rfl⟩ := List.mem_map.mp member
        obtain ⟨later, binds⟩ := mem_labels_iff.mp behind
        -- a name has one index, so it labels no later word
        have listed := ((binds_bodyTexts isLabel _ _).mp binds).1
        rw [String.ofList_toList] at listed
        have same := LabelTable.index_unique listed (LabelTable.mem_namesAt.mp named)
        omega

/-! ## The listing as a whole -/

theorem statements_listing :
    statements (Text.lines program.listing.toList) =
      program.words.map fun word => (word.statement 0).written := by
  rw [lines_listing isLabel, statements_append, statements_headingTexts,
    statements_bodyTexts isLabel, List.nil_append]

theorem length_statements_listing :
    (statements (Text.lines program.listing.toList)).length = program.size := by
  rw [statements_listing isLabel, List.length_map]
  rfl

theorem binds_listing :
    Binds (Text.lines program.listing.toList) name index ↔
      (String.ofList name, index) ∈ program.labels.entries ∧ index < program.size := by
  have heading := statements_headingTexts program
  rw [lines_listing isLabel, binds_append, binds_of_unstated heading, labels_headingTexts,
    heading]
  simp only [List.not_mem_nil, false_and, false_or, binds_bodyTexts isLabel, List.length_nil,
    Nat.zero_add, exists_eq_right', Program.size]

/-- A listing whose labels can be read is well formed wherever its words fit. -/
theorem wellFormed_listing {capacity : Nat} (fits : program.size ≤ capacity) :
    WellFormed capacity (Text.lines program.listing.toList) where
  labels_nodup := by
    rw [lines_listing isLabel, labels_append, labels_headingTexts]
    exact nodup_labels_bodyTexts isLabel 0 program.words
  known := by
    intro written member
    rw [statements_listing isLabel] at member
    obtain ⟨word, -, rfl⟩ := List.mem_map.mp member
    exact ⟨_, (word.statement 0).ofMnemonic_written, (word.statement 0).length_operands⟩
  closed := by
    rw [closed_iff]
    intro name index binds
    rw [length_statements_listing isLabel]
    exact ((binds_listing isLabel).mp binds).2
  fits := by rwa [length_statements_listing isLabel]

end Lines

end Listing

/-! ## Labels where numbers were meant -/

theorem Grammar.origin_le {base origin : Nat} {form : OperandForm}
    (takes : origin? base form = some origin) : origin ≤ base := by
  cases form with
  | relative =>
      cases takes
      exact Nat.zero_le base
  | absolute =>
      cases takes
      exact Nat.le_refl base
  | none | count | repetitions | dataWord => cases takes

section Small

variable {free bound : List Char → Nat → Prop} {base : Nat}

/-- Operands that are read without labels are read with them, if none of them is a label with
an address too large. -/
theorem Grammar.Reads.exists_of_small {form : OperandForm} {operands : List (List Char)}
    {operand : Operand} (reads : Reads free base form operands operand)
    (unbound : ∀ name index, ¬free name index)
    (small : ∀ text ∈ operands, ∀ index, bound text index → base + index < operandLimit) :
    ∃ other, Reads bound base form operands other := by
  cases reads with
  | none => exact ⟨_, .none⟩
  | dataWord bank word => exact ⟨_, .dataWord bank word⟩
  | label _ isFree => exact absurd isFree (unbound _ _)
  | @number _ text _ single _ spells =>
      by_cases resolved : ∃ origin index, origin? base form = some origin ∧ bound text index
      · obtain ⟨origin, index, takes, isBound⟩ := resolved
        have low := origin_le takes
        have inside := small text (List.mem_singleton_self text) index isBound
        exact ⟨_, .label takes isBound (by omega)⟩
      · refine ⟨_, .number single ?_ spells⟩
        intro takes index isBound
        obtain ⟨origin, isOrigin⟩ := Option.ne_none_iff_exists'.mp takes
        exact resolved ⟨origin, index, isOrigin, isBound⟩

/-- So are statements; the number of a word is never a label. -/
theorem Grammar.Encodes.exists_of_small {written : List Char × List (List Char)} {word : Word}
    (encodes : Encodes free base written word) (unbound : ∀ name index, ¬free name index)
    (small : ∀ opcode, Directive.ofMnemonic? written.1 = some (.instruction opcode) →
      ∀ text ∈ written.2, ∀ index, bound text index → base + index < operandLimit) :
    ∃ other, Encodes bound base written other := by
  cases encodes with
  | number asked spells => exact ⟨_, .number asked spells⟩
  | instruction asked reads =>
      obtain ⟨_, others⟩ := reads.exists_of_small unbound (small _ asked)
      exact ⟨_, .instruction asked others⟩

end Small

/-- The operands of an instruction in a listing are decimal numerals. -/
theorem Word.exists_decimal_of_mem_operands {word : Word} {line : Nat} {opcode : Opcode}
    (asked : Directive.ofMnemonic? (word.statement line).written.1 = some (.instruction opcode))
    {text : List Char} (member : text ∈ (word.statement line).operands) :
    ∃ value, text = Numeral.decimal value := by
  rw [Statement.ofMnemonic_written] at asked
  rw [Word.statement] at asked member
  split at asked
  · rename_i instruction decoded
    rw [decoded] at member
    cases instruction with
    | plain op => cases member
    | wide op operand => exact ⟨_, List.mem_singleton.mp member⟩
    | data op address =>
        rcases List.mem_cons.mp member with rfl | last
        · exact ⟨_, rfl⟩
        · exact ⟨_, List.mem_singleton.mp last⟩
  · cases asked

namespace Program

variable {geometry : Geometry} {program again : Program}

/-- A program without its labels. -/
def unlabelled (program : Program) : Program :=
  { program with labels := .empty }

/-- Whether the words of a program are made again of their own text. -/
def WordsReassemble (geometry : Geometry) (program : Program) : Prop :=
  ∃ again, assemble geometry program.unlabelled.listing = .ok again ∧ again.words = program.words

theorem isLabel_unlabelled (program : Program) :
    ∀ entry ∈ program.unlabelled.labels.entries, SourceLine.IsLabel entry.1.toList :=
  List.forall_mem_nil _

theorem not_binds_unlabelled (program : Program) (name : List Char) (index : Nat) :
    ¬Binds (Text.lines program.unlabelled.listing.toList) name index := by
  rw [Listing.binds_listing program.isLabel_unlabelled]
  exact fun bound => nomatch bound.1

/-- Words that their text asks for are made again of it. -/
theorem wordsReassemble_of_canonical (valid : geometry.Valid)
    (whole : program.base + program.size = geometry.mainWords)
    (canonical : ∀ word ∈ program.words, word.Canonical) : program.WordsReassemble geometry := by
  have isLabel := program.isLabel_unlabelled
  have unbound : LabelTable.empty.Binds = Binds (Text.lines program.unlabelled.listing.toList) := by
    funext name index
    exact propext (iff_of_false nofun (program.not_binds_unlabelled name index))
  refine ⟨program.unlabelled, (assemble_eq_ok_iff_yields valid).mpr ?_, rfl⟩
  constructor
  · exact Listing.wellFormed_listing isLabel (Nat.le_of_add_left_le (Nat.le_of_eq whole))
  · rw [Listing.length_statements_listing isLabel]
    exact Nat.eq_sub_of_add_eq whole
  · rw [Listing.statements_listing isLabel, List.forall₂_map_left_iff, ← unbound,
      List.forall₂_same]
    intro word member
    have nonnumeric : LabelTable.empty.Nonnumeric := List.forall_mem_nil _
    exact Statement.encode_eq_ok_iff.mp ((canonical word member).encode_statement nonnumeric 0)
  · rintro ⟨name, index⟩
    exact iff_of_false nofun (program.not_binds_unlabelled _ _)

/-- A listing that is assembled again binds the labels of its words and no others. -/
theorem mem_labels_of_assemble_listing
    (isLabel : ∀ entry ∈ program.labels.entries, SourceLine.IsLabel entry.1.toList)
    (assembled : assemble geometry program.listing = .ok again) (entry : String × Nat) :
    entry ∈ again.labels.entries ↔ entry ∈ program.labels.entries ∧ entry.2 < program.size := by
  have valid := (assemble_eq_ok_iff.mp assembled).1
  have yields := (assemble_eq_ok_iff_yields valid).mp assembled
  rw [yields.labels, Listing.binds_listing isLabel, String.ofList_toList]

/-- Words that are made again of their own text are a source with their labels too, if the
addresses of main memory fit into operands or no label is spelled like a number. -/
theorem exists_assemble_listing
    (isLabel : ∀ entry ∈ program.labels.entries, SourceLine.IsLabel entry.1.toList)
    (whole : program.base + program.size = geometry.mainWords)
    (reassemble : program.WordsReassemble geometry)
    (apart : geometry.mainWords ≤ operandLimit ∨ program.labels.Nonnumeric) :
    ∃ again, assemble geometry program.listing = .ok again := by
  obtain ⟨alone, assembled, -⟩ := reassemble
  have valid := (assemble_eq_ok_iff.mp assembled).1
  have unlabelled := program.isLabel_unlabelled
  have each := (exists_yields_iff.mp ⟨_, (assemble_eq_ok_iff_yields valid).mp assembled⟩).2
  simp only [assemble_eq_ok_iff_yields valid]
  refine exists_yields_iff.mpr ⟨Listing.wellFormed_listing isLabel (by omega), ?_⟩
  have base : geometry.mainWords - program.size = program.base := by omega
  rw [Listing.length_statements_listing unlabelled, Listing.statements_listing unlabelled] at each
  rw [Listing.length_statements_listing isLabel, Listing.statements_listing isLabel, base]
  intro written member
  obtain ⟨word, encodes⟩ := each written member
  rw [show program.unlabelled.size = program.size from rfl, base] at encodes
  apply encodes.exists_of_small program.not_binds_unlabelled
  intro opcode asked text isOperand index binds
  obtain ⟨listed, inside⟩ := (Listing.binds_listing isLabel).mp binds
  rcases apart with narrow | nonnumeric
  · omega
  · obtain ⟨word, -, rfl⟩ := List.mem_map.mp member
    obtain ⟨value, rfl⟩ := Word.exists_decimal_of_mem_operands asked isOperand
    exact absurd String.toList_ofList (nonnumeric _ listed value)

end Program

end BitSerial
