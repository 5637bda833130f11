import BitSerial.Proofs.Assembly.ListingText

/-!
# Listings assembled again

A listing is a source, and the first pass over it goes through the program word by word:
before each word it binds the labels of the word's index, then it appends the word's
statement.  When all words are through, it has all labels and a statement for each word,
and the second pass makes the words of these statements.
-/

namespace BitSerial

/-- A line number is kept in the statement of a word. -/
theorem Word.line_statement (line : Nat) (word : Word) : (word.statement line).line = line := by
  rw [statement]
  cases Instruction.decode word with
  | ok instruction => cases instruction <;> rfl
  | error unknown => rfl

namespace Outline

variable {outline : Outline}

/-! ## Lines of a known kind -/

/-- Lines are taken in one after another. -/
theorem addLines_append {number : Nat} {left right : List (List Char)} {middle after : Outline}
    (first : outline.addLines number left = .ok middle)
    (second : middle.addLines (number + left.length) right = .ok after) :
    outline.addLines number (left ++ right) = .ok after := by
  induction left generalizing number outline with
  | nil =>
      cases first
      exact second
  | cons line left ih =>
      rw [addLines] at first
      rw [List.cons_append, addLines]
      cases next : outline.addLine number (SourceLine.parse line) with
      | error error =>
          rw [next] at first
          cases first
      | ok outline =>
          rw [next] at first
          rw [List.length_cons, Nat.add_comm left.length, ← Nat.add_assoc] at second
          exact ih first second

/-- Lines that are read for nothing change nothing. -/
theorem addLines_of_empty {number : Nat} {lines : List (List Char)}
    (empty : ∀ line ∈ lines, SourceLine.parse line = ⟨none, none⟩) :
    outline.addLines number lines = .ok outline := by
  induction lines generalizing number with
  | nil => rfl
  | cons line rest ih =>
      rw [addLines, empty line List.mem_cons_self]
      exact ih fun other member => empty other (List.mem_cons_of_mem _ member)

theorem addLine_written (statement : Statement) (outline : Outline) :
    outline.addLine statement.line ⟨none, some statement.written⟩ =
      .ok (outline.addStatement statement) := by
  rw [addLine]
  dsimp only [bind, Except.bind]
  rw [statement.ofWords_written]
  rfl

theorem addLine_label {number : Nat} {label : List Char}
    (fresh : outline.labels.find? (String.ofList label) = none) :
    outline.addLine number ⟨some label, none⟩ = .ok { outline with
      labels := outline.labels.insert (String.ofList label) outline.size
      pending := outline.pending <|> some (number, String.ofList label) } := by
  rw [addLine]
  dsimp only
  rw [addLabel, fresh]
  rfl

/-- The line of a word appends the word's statement. -/
theorem addLines_wordText (number base index : Nat) (word : Word) (outline : Outline) :
    outline.addLines number [Listing.wordText base index word] =
      .ok (outline.addStatement (word.statement number)) := by
  have read := addLine_written (word.statement number) outline
  rw [word.line_statement] at read
  rw [addLines, Listing.parse_wordText base index word number, read]
  rfl

/-- New labels are all bound to the statement to come. -/
theorem addLines_labels (number : Nat) {names : List String} (nodup : names.Nodup)
    (isLabel : ∀ name ∈ names, SourceLine.IsLabel name.toList)
    (fresh : ∀ name ∈ names, outline.labels.find? name = none) :
    ∃ after, outline.addLines number (names.map Listing.labelText) = .ok after ∧
      after.statements = outline.statements ∧
      ∀ entry, entry ∈ after.labels.entries ↔
        entry ∈ outline.labels.entries ∨ entry.1 ∈ names ∧ entry.2 = outline.size := by
  induction names generalizing number outline with
  | nil => exact ⟨outline, rfl, rfl, by simp⟩
  | cons name rest ih =>
      obtain ⟨apart, restNodup⟩ := List.nodup_cons.mp nodup
      have unbound : outline.labels.find? name = none := fresh name List.mem_cons_self
      let next : Outline := { outline with
        labels := outline.labels.insert name outline.size
        pending := outline.pending <|> some (number, name) }
      have bound (entry) : entry ∈ next.labels.entries ↔
          entry = (name, outline.size) ∨ entry ∈ outline.labels.entries :=
        LabelTable.mem_insert_iff unbound
      have stillFresh : ∀ other ∈ rest, next.labels.find? other = none := by
        intro other member
        rw [LabelTable.find?_eq_none_iff]
        intro index inNext
        rcases (bound _).mp inNext with same | older
        · obtain ⟨rfl, -⟩ := Prod.mk.inj same
          exact apart member
        · have absent := fresh other (List.mem_cons_of_mem _ member)
          exact LabelTable.find?_eq_none_iff.mp absent index older
      obtain ⟨after, added, statements, members⟩ := ih (number + 1) restNodup
        (fun other member => isLabel other (List.mem_cons_of_mem _ member)) stillFresh
      have read : outline.addLine number (SourceLine.parse (Listing.labelText name)) =
          .ok next := by
        rw [Listing.parse_labelText (isLabel name List.mem_cons_self), addLine_label,
          String.ofList_toList]
        rwa [String.ofList_toList]
      refine ⟨after, ?_, statements, ?_⟩
      · rw [List.map_cons, addLines, read]
        exact added
      · rintro ⟨other, index⟩
        rw [members, bound, List.mem_cons, Prod.mk.injEq]
        constructor
        · rintro ((⟨rfl, rfl⟩ | older) | ⟨later, rfl⟩)
          · exact .inr ⟨.inl rfl, rfl⟩
          · exact .inl older
          · exact .inr ⟨.inr later, rfl⟩
        · rintro (older | ⟨rfl | later, rfl⟩)
          · exact .inl (.inr older)
          · exact .inl (.inl ⟨rfl, rfl⟩)
          · exact .inr ⟨later, rfl⟩

/-! ## Word by word -/

/-- What is true of an outline that has taken in the listing of a program up to the end
of some words. -/
structure Lists (program : Program) (words : List Word) (outline : Outline) : Prop where
  mem_labels : ∀ entry, entry ∈ outline.labels.entries ↔
    entry ∈ program.labels.entries ∧ entry.2 < words.length
  encoded : List.Forall₂
    (fun statement word => Statement.encode statement program.labels program.base = .ok word)
    outline.statements.toList words
  pending : outline.pending = none

variable {program : Program} {words : List Word}

theorem lists_empty (program : Program) : empty.Lists program [] where
  mem_labels _ := by simp [empty, LabelTable.empty]
  encoded := .nil
  pending := rfl

theorem Lists.size (lists : outline.Lists program words) : outline.size = words.length := by
  rw [← lists.encoded.length_eq]
  exact outline.statements.length_toList.symm

/-- A label of the next word is new. -/
theorem Lists.fresh (lists : outline.Lists program words) {name : String}
    (named : name ∈ program.labelsAt words.length) : outline.labels.find? name = none := by
  rw [LabelTable.find?_eq_none_iff]
  intro index member
  obtain ⟨listed, earlier⟩ := (lists.mem_labels _).mp member
  have same := LabelTable.index_unique listed (LabelTable.mem_namesAt.mp named)
  exact absurd same (Nat.ne_of_lt earlier)

/-- An outline that has the labels of the next word as well gets its statement. -/
theorem Lists.addStatement (lists : outline.Lists program words) {labelled : Outline}
    (statements : labelled.statements = outline.statements)
    (members : ∀ entry, entry ∈ labelled.labels.entries ↔ entry ∈ outline.labels.entries ∨
      entry.1 ∈ program.labelsAt words.length ∧ entry.2 = outline.size)
    (nonnumeric : program.labels.Nonnumeric) {word : Word} (canonical : word.Canonical)
    (line : Nat) :
    (labelled.addStatement (word.statement line)).Lists program (words ++ [word]) where
  mem_labels := by
    rintro ⟨name, index⟩
    rw [List.length_append, List.length_singleton, Nat.lt_succ_iff_lt_or_eq]
    show (name, index) ∈ labelled.labels.entries ↔ _
    rw [members, lists.mem_labels, Program.labelsAt, LabelTable.mem_namesAt, lists.size]
    constructor
    · rintro (⟨listed, earlier⟩ | ⟨listed, rfl⟩)
      · exact ⟨listed, .inl earlier⟩
      · exact ⟨listed, .inr rfl⟩
    · rintro ⟨listed, earlier | rfl⟩
      · exact .inl ⟨listed, earlier⟩
      · exact .inr ⟨listed, rfl⟩
  encoded := by
    rw [Outline.addStatement, Array.toList_push, statements]
    exact List.rel_append lists.encoded (.cons (canonical.encode_statement nonnumeric line) .nil)
  pending := rfl

/-- The labels and the line of a word are taken in. -/
theorem Lists.addWord (lists : outline.Lists program words) (number : Nat)
    (isLabel : ∀ entry ∈ program.labels.entries, SourceLine.IsLabel entry.1.toList)
    (nonnumeric : program.labels.Nonnumeric) {word : Word} (canonical : word.Canonical) :
    ∃ after, outline.addLines number
        ((program.labelsAt words.length).map Listing.labelText ++
          [Listing.wordText program.base words.length word]) = .ok after ∧
      after.Lists program (words ++ [word]) := by
  have isName (name) (named : name ∈ program.labelsAt words.length) :
      SourceLine.IsLabel name.toList := isLabel _ (LabelTable.mem_namesAt.mp named)
  obtain ⟨labelled, added, statements, members⟩ :=
    addLines_labels number (program.labels.nodup_namesAt words.length) isName
      fun name => lists.fresh
  exact ⟨_, addLines_append added (addLines_wordText _ _ _ word labelled),
    lists.addStatement statements members nonnumeric canonical _⟩

/-- So is the rest of the listing. -/
theorem Lists.addBody (lists : outline.Lists program words) (number : Nat)
    (isLabel : ∀ entry ∈ program.labels.entries, SourceLine.IsLabel entry.1.toList)
    (nonnumeric : program.labels.Nonnumeric) {rest : List Word}
    (canonical : ∀ word ∈ rest, word.Canonical) :
    ∃ after, outline.addLines number (Listing.bodyTexts program words.length rest) = .ok after ∧
      after.Lists program (words ++ rest) := by
  induction rest generalizing number outline words with
  | nil =>
      rw [List.append_nil]
      exact ⟨outline, rfl, lists⟩
  | cons word rest ih =>
      have first := canonical word List.mem_cons_self
      obtain ⟨middle, added, listsMiddle⟩ := lists.addWord number isLabel nonnumeric first
      have others (other) (member : other ∈ rest) := canonical other (List.mem_cons_of_mem _ member)
      obtain ⟨after, behind, listsAfter⟩ := ih listsMiddle _ others
      refine ⟨after, ?_, ?_⟩
      · rw [Listing.bodyTexts, List.append_cons]
        rw [List.length_append] at behind
        exact addLines_append added behind
      · rwa [List.append_assoc] at listsAfter

/-- The outline of all words is the outline of the program. -/
theorem Lists.placed (lists : outline.Lists program program.words)
    (label_lt : ∀ entry ∈ program.labels.entries, entry.2 < program.size) :
    outline.Placed (program.base + program.size) program where
  base_add_size := by
    rw [lists.size]
    rfl
  labels := by
    apply LabelTable.ext
    intro entry
    rw [lists.mem_labels]
    exact ⟨fun listed => ⟨listed, label_lt entry listed⟩, And.left⟩
  encoded := lists.encoded

end Outline

namespace Program

/-- The listing of an assembled program is a source for the same program: words, labels
and base.  The words must be ones that their text asks for, and no label may be taken
for a number.  If there is room for an operand behind main memory, all addresses in it are
counts. -/
theorem assemble_listing {geometry : Geometry} {source : String} {program : Program}
    (assembled : assemble geometry source = .ok program)
    (canonical : ∀ word ∈ program.words, word.Canonical) (nonnumeric : program.labels.Nonnumeric) :
    assemble geometry program.listing = .ok program ∧
      (geometry.mainWords + operandLimit ≤ countLimit →
        program.listing? = some program.listing) := by
  obtain ⟨valid, outline, outlined, placed⟩ := assemble_eq_ok_iff.mp assembled
  have isOf := of_assemble assembled
  have isLabel : ∀ entry ∈ program.labels.entries, SourceLine.IsLabel entry.1.toList := by
    rw [placed.labels]
    exact fun entry => Outline.isLabel_of_ofSource outlined
  obtain ⟨again, added, lists⟩ :=
    (Outline.lists_empty program).addBody _ isLabel nonnumeric canonical
  have whole := isOf.base_add_size
  refine ⟨assemble_eq_ok_iff.mpr ⟨valid, again, ?_, ?_⟩, fun room => ?_⟩
  · refine Outline.ofSource_eq_ok_iff.mpr ⟨?_, lists.pending⟩
    rw [Listing.lines_listing isLabel]
    exact Outline.addLines_append (Outline.addLines_of_empty Listing.parse_of_mem_headingTexts)
      added
  · rw [← whole]
    exact lists.placed isOf.label_lt
  · exact listing?_eq_some (by omega) (by omega)

/-- A program with two labels at one word, one of them with a space in it, with the
largest count and with a word that is no instruction. -/
theorem assemble_listing_labels :
    ∃ program : Program,
      assemble {} "Start:\nnext step: LAI 1\nSTO 1, 2\nMLA 65536\nJMP start\nDAT 0x7E00000001" =
        .ok program ∧
      (∀ word ∈ program.words, word.Canonical) ∧ program.labels.Nonnumeric ∧
      program.labelsAt 0 = ["NEXT STEP", "START"] ∧
      assemble {} program.listing = .ok program ∧ program.listing? = some program.listing := by
  let program : Program :=
    ⟨59, [0x0100000001#40, 0x1000000012#40, 0x0E00010000#40, 0x2000000000#40, 0x7E00000001#40],
      .ofList [("START", 0), ("NEXT STEP", 0)]⟩
  have assembled : assemble {}
      "Start:\nnext step: LAI 1\nSTO 1, 2\nMLA 65536\nJMP start\nDAT 0x7E00000001" =
        .ok program := by
    decide +kernel
  have checked : (program.words.all fun word => decide word.Canonical) = true := by
    decide +kernel
  have canonical (word) (member : word ∈ program.words) : word.Canonical :=
    of_decide_eq_true (List.all_eq_true.mp checked word member)
  have nonnumeric : program.labels.Nonnumeric :=
    LabelTable.nonnumeric_of_all (by decide +kernel)
  obtain ⟨again, counted⟩ := assemble_listing assembled canonical nonnumeric
  exact ⟨program, assembled, canonical, nonnumeric, by decide +kernel, again,
    counted (by decide)⟩

end Program

end BitSerial
