import BitSerial.Proofs.Assembly.Passes
import Mathlib.Data.List.Induction

/-!
# The grammar of sources

What a source means and what is wrong with it, said of its lines alone: which index a name
is bound to, what word a statement stands for, and which of several errors counts.  Nothing
here is kept from one line to the next, and nothing is gone through twice.
-/

namespace BitSerial.Grammar

open SourceLine (parse statements)

/-! ## Lines -/

/-- The labels of some lines, in order. -/
def labels (lines : List (List Char)) : List (List Char) :=
  lines.filterMap fun line => (parse line).label

/-- A name is bound to the number of statements before the line that it labels. -/
def Binds (lines : List (List Char)) (name : List Char) (index : Nat) : Prop :=
  ∃ before line behind, lines = before ++ line :: behind ∧ (parse line).label = some name ∧
    index = (statements before).length

/-- What is wrong with a line behind some others, in itself.  A label that was there
before counts first, then a mnemonic that no operation has, then an operand too many. -/
inductive Offends (before : List (List Char)) (line : List Char) : AssemblyError → Prop
  | duplicateLabel {label : List Char} (labelled : (parse line).label = some label)
      (again : label ∈ labels before) :
      Offends before line (.duplicateLabel (before.length + 1) (String.ofList label))
  | unknownMnemonic {mnemonic : List Char} {operands : List (List Char)}
      (fresh : ∀ label, (parse line).label = some label → label ∉ labels before)
      (stated : (parse line).statement = some (mnemonic, operands))
      (unknown : Directive.ofMnemonic? mnemonic = none) :
      Offends before line (.unknownMnemonic (before.length + 1) (String.ofList mnemonic))
  | unexpectedOperand {mnemonic extra : List Char} {operands : List (List Char)}
      {directive : Directive}
      (fresh : ∀ label, (parse line).label = some label → label ∉ labels before)
      (stated : (parse line).statement = some (mnemonic, operands))
      (asked : Directive.ofMnemonic? mnemonic = some directive)
      (surplus : operands[directive.arity]? = some extra) :
      Offends before line
        (.unexpectedOperand (before.length + 1) (String.ofList mnemonic) (String.ofList extra))

/-- No line offends. -/
def Fine (lines : List (List Char)) : Prop :=
  ∀ before line behind, lines = before ++ line :: behind → ∀ error, ¬Offends before line error

/-- A statement follows every label, on its line or on a later one. -/
def Closed (lines : List (List Char)) : Prop :=
  ∀ before line behind, lines = before ++ line :: behind → (parse line).label ≠ none →
    statements (line :: behind) ≠ []

/-- A label is the first that no statement follows. -/
def Dangles (lines : List (List Char)) (number : Nat) (label : List Char) : Prop :=
  ∃ before line behind, lines = before ++ line :: behind ∧ Closed before ∧
    (parse line).label = some label ∧ statements (line :: behind) = [] ∧
    number = before.length + 1

/-! ## Operands -/

/-- A text spells a number that has a value. -/
def Spells {α : Type} (value? : Literal → Option α) (text : List Char) (value : α) : Prop :=
  ∃ literal, Literal.ofText? text = some literal ∧ value? literal = some value

/-- Why a text does not spell a number that has a value. -/
inductive Misspells {α : Type} (value? : Literal → Option α) (number : Nat) (text : List Char) :
    AssemblyError → Prop
  | unresolved (noNumber : Literal.ofText? text = none) :
      Misspells value? number text (.unresolvedOperand number (String.ofList text))
  | outOfRange {literal : Literal} (isNumber : Literal.ofText? text = some literal)
      (outside : value? literal = none) :
      Misspells value? number text (.valueOutOfRange number (String.ofList text))

/-- The value of a number as an operand of some form. -/
def value? (form : OperandForm) (literal : Literal) : Option Operand :=
  literal.operand?.filter fun value =>
    match form with
    | .repetitions => value.toNat ≤ 65536
    | .dataWord => value.toNat < 16
    | _ => true

/-- Where labels count from in an operand of some form, if it may be a label. -/
def origin? (base : Nat) : OperandForm → Option Nat
  | .relative => some 0
  | .absolute => some base
  | _ => none

/-- Operands of some form stand for the operand of an instruction.  A name that is bound
is no number. -/
inductive Reads (bound : List Char → Nat → Prop) (base : Nat) :
    OperandForm → List (List Char) → Operand → Prop
  | none : Reads bound base .none [] 0
  | label {form : OperandForm} {text : List Char} {origin index : Nat}
      (takes : origin? base form = some origin) (isBound : bound text index)
      (fits : origin + index < operandLimit) :
      Reads bound base form [text] (BitVec.ofNat 32 (origin + index))
  | number {form : OperandForm} {text : List Char} {operand : Operand} (single : form.arity = 1)
      (unbound : origin? base form ≠ Option.none → ∀ index, ¬bound text index)
      (spells : Spells (value? form) text operand) : Reads bound base form [text] operand
  | dataWord {bank word : List Char} {bankValue wordValue : Operand}
      (spellsBank : Spells (value? .dataWord) bank bankValue)
      (spellsWord : Spells (value? .dataWord) word wordValue) :
      Reads bound base .dataWord [bank, word]
        (BitVec.ofNat 32 (16 * bankValue.toNat + wordValue.toNat))

/-- Why operands, none of them missing, do not stand for any operand of an instruction. -/
inductive Misreads (bound : List Char → Nat → Prop) (base number : Nat) :
    OperandForm → List (List Char) → AssemblyError → Prop
  | label {form : OperandForm} {text : List Char} {origin index : Nat}
      (takes : origin? base form = some origin) (isBound : bound text index)
      (large : operandLimit ≤ origin + index) :
      Misreads bound base number form [text]
        (.valueOutOfRange number (toString (origin + index)))
  | number {form : OperandForm} {text : List Char} {error : AssemblyError}
      (single : form.arity = 1)
      (unbound : origin? base form ≠ none → ∀ index, ¬bound text index)
      (misspells : Misspells (value? form) number text error) :
      Misreads bound base number form [text] error
  | bank {bank word : List Char} {error : AssemblyError}
      (misspells : Misspells (value? .dataWord) number bank error) :
      Misreads bound base number .dataWord [bank, word] error
  | word {bank word : List Char} {bankValue : Operand} {error : AssemblyError}
      (spellsBank : Spells (value? .dataWord) bank bankValue)
      (misspells : Misspells (value? .dataWord) number word error) :
      Misreads bound base number .dataWord [bank, word] error

/-! ## Statements -/

/-- A statement stands for a word. -/
inductive Encodes (bound : List Char → Nat → Prop) (base : Nat) :
    List Char × List (List Char) → Word → Prop
  | instruction {mnemonic : List Char} {operands : List (List Char)} {opcode : Opcode}
      {operand : Operand} (asked : Directive.ofMnemonic? mnemonic = some (.instruction opcode))
      (reads : Reads bound base opcode.operandForm operands operand) :
      Encodes bound base (mnemonic, operands) (Word.ofParts opcode.byte operand)
  | number {mnemonic text : List Char} {word : Word}
      (asked : Directive.ofMnemonic? mnemonic = some .word)
      (spells : Spells Literal.word? text word) : Encodes bound base (mnemonic, [text]) word

/-- Why a statement stands for no word.  A missing operand counts first, and what is wrong
with the bank of a data word before what is wrong with its place there. -/
inductive Faults (bound : List Char → Nat → Prop) (base number : Nat) :
    List Char × List (List Char) → AssemblyError → Prop
  | missing {mnemonic : List Char} {operands : List (List Char)} {directive : Directive}
      (asked : Directive.ofMnemonic? mnemonic = some directive)
      (short : operands.length < directive.arity) :
      Faults bound base number (mnemonic, operands)
        (.missingOperand number (String.ofList mnemonic))
  | operand {mnemonic : List Char} {operands : List (List Char)} {opcode : Opcode}
      {error : AssemblyError}
      (asked : Directive.ofMnemonic? mnemonic = some (.instruction opcode))
      (misreads : Misreads bound base number opcode.operandForm operands error) :
      Faults bound base number (mnemonic, operands) error
  | number {mnemonic text : List Char} {error : AssemblyError}
      (asked : Directive.ofMnemonic? mnemonic = some .word)
      (misspells : Misspells Literal.word? number text error) :
      Faults bound base number (mnemonic, [text]) error

/-! ## Sources -/

/-- A source is written so that it can be assembled if its operands can be resolved: no
two labels are equal, every statement has a mnemonic that is known and no operand too many,
every label is followed by a statement, and the statements fit into main memory. -/
structure WellFormed (capacity : Nat) (lines : List (List Char)) : Prop where
  labels_nodup : (labels lines).Nodup
  known : ∀ written ∈ statements lines, ∃ directive,
    Directive.ofMnemonic? written.1 = some directive ∧ written.2.length ≤ directive.arity
  closed : Closed lines
  fits : (statements lines).length ≤ capacity

/-- A program is what a source stands for in a main memory: it ends where that ends, it has
a word for each statement, and its labels are the names that are bound. -/
structure Yields (capacity : Nat) (lines : List (List Char)) (program : Program) : Prop where
  wellFormed : WellFormed capacity lines
  base : program.base = capacity - (statements lines).length
  words : List.Forall₂ (Encodes (Binds lines) program.base) (statements lines) program.words
  labels : ∀ entry, entry ∈ program.labels.entries ↔ Binds lines entry.1.toList entry.2

/-- Why a source stands for no program in a main memory.  The first line that offends
counts first, then the first label that no statement follows, then the size, and then the
first statement that stands for no word. -/
inductive Refuses (capacity : Nat) (lines : List (List Char)) : AssemblyError → Prop
  | line {before behind : List (List Char)} {line : List Char} {error : AssemblyError}
      (split : lines = before ++ line :: behind) (fine : Fine before)
      (offends : Offends before line error) : Refuses capacity lines error
  | danglingLabel {number : Nat} {label : List Char} (fine : Fine lines)
      (dangles : Dangles lines number label) :
      Refuses capacity lines (.danglingLabel number (String.ofList label))
  | programTooLarge (fine : Fine lines) (closed : Closed lines)
      (large : capacity < (statements lines).length) :
      Refuses capacity lines (.programTooLarge (statements lines).length capacity)
  | statement {before behind : List (List Char)} {line : List Char} {words : List Word}
      {written : List Char × List (List Char)} {error : AssemblyError}
      (wellFormed : WellFormed capacity lines) (split : lines = before ++ line :: behind)
      (stated : (parse line).statement = some written)
      (encoded : List.Forall₂
        (Encodes (Binds lines) (capacity - (statements lines).length)) (statements before) words)
      (faults : Faults (Binds lines) (capacity - (statements lines).length)
        (before.length + 1) written error) : Refuses capacity lines error

variable {lines before behind : List (List Char)} {line : List Char} {name : List Char}
  {number index : Nat} {error : AssemblyError}

/-! ## One line more -/

/-- A line of a text that is one line longer is a line of that text or the last one. -/
theorem concat_eq_append_cons_iff {α : Type} {items before behind : List α} {last item : α} :
    items ++ [last] = before ++ item :: behind ↔
      (before = items ∧ item = last ∧ behind = []) ∨
        ∃ between, behind = between ++ [last] ∧ items = before ++ item :: between := by
  constructor
  · intro same
    rcases List.eq_nil_or_concat behind with rfl | ⟨between, other, rfl⟩
    · obtain ⟨rfl, isLast⟩ := List.append_inj' same rfl
      exact .inl ⟨rfl, (List.singleton_inj.mp isLast).symm, rfl⟩
    · rw [List.concat_eq_append, ← List.cons_append, ← List.append_assoc] at same
      obtain ⟨rfl, isLast⟩ := List.append_inj' same rfl
      rw [List.singleton_inj.mp isLast, List.concat_eq_append]
      exact .inr ⟨between, rfl, rfl⟩
  · rintro (⟨rfl, rfl, rfl⟩ | ⟨between, rfl, rfl⟩)
    · rfl
    · simp

theorem labels_concat : labels (lines ++ [line]) = labels lines ++ (parse line).label.toList := by
  rw [labels, List.filterMap_append, labels, List.filterMap_cons]
  cases (parse line).label <;> rfl

theorem statements_append : statements (lines ++ behind) = statements lines ++ statements behind :=
  List.filterMap_append

theorem statements_singleton : statements [line] = (parse line).statement.toList := by
  rw [statements, List.filterMap_cons]
  cases (parse line).statement <;> rfl

theorem binds_concat :
    Binds (lines ++ [line]) name index ↔
      Binds lines name index ∨
        (parse line).label = some name ∧ index = (statements lines).length := by
  constructor
  · rintro ⟨before, found, behind, split, labelled, rfl⟩
    rcases concat_eq_append_cons_iff.mp split with ⟨rfl, rfl, -⟩ | ⟨between, -, rfl⟩
    · exact .inr ⟨labelled, rfl⟩
    · exact .inl ⟨before, found, between, rfl, labelled, rfl⟩
  · rintro (⟨before, found, behind, rfl, labelled, rfl⟩ | ⟨labelled, rfl⟩)
    · exact ⟨before, found, behind ++ [line], by simp, labelled, rfl⟩
    · exact ⟨lines, line, [], rfl, labelled, rfl⟩

/-- The names that are bound are the labels. -/
theorem mem_labels_iff : name ∈ labels lines ↔ ∃ index, Binds lines name index := by
  rw [labels, List.mem_filterMap]
  constructor
  · rintro ⟨line, member, labelled⟩
    obtain ⟨before, behind, split⟩ := List.append_of_mem member
    exact ⟨_, before, line, behind, split, labelled, rfl⟩
  · rintro ⟨index, before, line, behind, rfl, labelled, -⟩
    exact ⟨line, List.mem_append_right before List.mem_cons_self, labelled⟩

theorem fine_nil : Fine [] :=
  fun _ _ _ split => absurd split (by simp)

theorem fine_concat :
    Fine (lines ++ [line]) ↔ Fine lines ∧ ∀ error, ¬Offends lines line error := by
  constructor
  · intro fine
    constructor
    · rintro before found behind rfl
      exact fine before found (behind ++ [line]) (by simp)
    · exact fine lines line [] rfl
  · rintro ⟨fine, inoffensive⟩ before found behind split
    rcases concat_eq_append_cons_iff.mp split with ⟨rfl, rfl, -⟩ | ⟨between, -, rfl⟩
    · exact inoffensive
    · exact fine before found between rfl

/-- A statement closes every label before it. -/
theorem closed_concat_of_stated (stated : (parse line).statement ≠ none) :
    Closed (lines ++ [line]) := by
  have open_ : statements [line] ≠ [] := by
    rw [statements_singleton, Ne, Option.toList_eq_nil_iff]
    exact stated
  rintro before found behind split -
  rcases concat_eq_append_cons_iff.mp split with ⟨-, rfl, rfl⟩ | ⟨between, rfl, -⟩
  · exact open_
  · rw [← List.cons_append, statements_append]
    exact List.append_ne_nil_of_right_ne_nil _ open_

theorem closed_concat_of_unlabelled (closed : Closed lines)
    (unlabelled : (parse line).label = none) : Closed (lines ++ [line]) := by
  intro before found behind split labelled
  rcases concat_eq_append_cons_iff.mp split with ⟨-, rfl, -⟩ | ⟨between, rfl, inside⟩
  · exact absurd unlabelled labelled
  · rw [← List.cons_append, statements_append]
    exact List.append_ne_nil_of_left_ne_nil (closed before found between inside labelled) _

/-- A label that dangles still does behind a line without a statement. -/
theorem Dangles.concat (dangles : Dangles lines number name)
    (unstated : (parse line).statement = none) : Dangles (lines ++ [line]) number name := by
  obtain ⟨before, found, behind, rfl, closed, labelled, nothing, counted⟩ := dangles
  refine ⟨before, found, behind ++ [line], by simp, closed, labelled, ?_, counted⟩
  rw [← List.cons_append, statements_append, nothing, statements_singleton, unstated]
  rfl

theorem dangles_concat (closed : Closed lines) (labelled : (parse line).label = some name)
    (unstated : (parse line).statement = none) :
    Dangles (lines ++ [line]) (lines.length + 1) name := by
  refine ⟨lines, line, [], rfl, closed, labelled, ?_, rfl⟩
  rw [statements_singleton, unstated]
  rfl

theorem Dangles.not_closed (dangles : Dangles lines number name) : ¬Closed lines := by
  obtain ⟨before, found, behind, split, -, labelled, nothing, -⟩ := dangles
  intro closed
  exact closed before found behind split (by simp [labelled]) nothing

/-- Just one label is the first that dangles. -/
theorem Dangles.unique {other : Nat} {otherName : List Char} (dangles : Dangles lines number name)
    (also : Dangles lines other otherName) : number = other ∧ name = otherName := by
  obtain ⟨before, first, behind, rfl, closed, labelled, nothing, rfl⟩ := dangles
  obtain ⟨before', second, behind', split, closed', labelled', nothing', rfl⟩ := also
  -- If one of the two stood before the other, a statement would follow it there already.
  have follows {front between : List (List Char)} {found : List Char}
      (closed : Closed (front ++ found :: between)) (labelled : (parse found).label ≠ none)
      (rest : List (List Char)) : statements (found :: between ++ rest) ≠ [] := by
    rw [statements_append]
    exact List.append_ne_nil_of_left_ne_nil (closed front found between rfl labelled) _
  rcases List.append_eq_append_iff.mp split with ⟨_ | ⟨found, between⟩, rfl, tail⟩ |
      ⟨_ | ⟨found, between⟩, rfl, tail⟩
  · cases tail
    cases labelled.symm.trans labelled'
    exact ⟨by simp, rfl⟩
  · cases tail
    exact absurd nothing (follows closed' (by simp [labelled]) _)
  · cases tail
    cases labelled.symm.trans labelled'
    exact ⟨by simp, rfl⟩
  · cases tail
    exact absurd nothing' (follows closed (by simp [labelled']) _)

/-- A label that was there before is what is wrong with its line. -/
theorem offends_iff_of_again (labelled : (parse line).label = some name)
    (again : name ∈ labels lines) :
    Offends lines line error ↔ error = .duplicateLabel (lines.length + 1) (String.ofList name) := by
  constructor
  · intro offends
    cases offends with
    | duplicateLabel same _ =>
        cases labelled.symm.trans same
        rfl
    | unknownMnemonic fresh | unexpectedOperand fresh => exact absurd again (fresh name labelled)
  · rintro rfl
    exact .duplicateLabel labelled again

/-- A line that does not offend has a new label, if any, and a statement that is known. -/
theorem inoffensive_iff :
    (∀ error, ¬Offends lines line error) ↔
      (∀ label, (parse line).label = some label → label ∉ labels lines) ∧
        ∀ written, (parse line).statement = some written → ∃ directive,
          Directive.ofMnemonic? written.1 = some directive ∧
            written.2.length ≤ directive.arity := by
  constructor
  · intro inoffensive
    have fresh (label) (labelled : (parse line).label = some label) : label ∉ labels lines :=
      fun again => inoffensive _ (.duplicateLabel labelled again)
    refine ⟨fresh, ?_⟩
    intro written stated
    cases asked : Directive.ofMnemonic? written.1 with
    | none => exact absurd (.unknownMnemonic fresh stated asked) (inoffensive _)
    | some directive =>
        refine ⟨directive, rfl, ?_⟩
        by_contra excess
        have surplus := List.getElem?_eq_getElem (Nat.lt_of_not_le excess)
        exact inoffensive _ (.unexpectedOperand fresh stated asked surplus)
  · rintro ⟨fresh, known⟩ error offends
    cases offends with
    | duplicateLabel labelled again => exact fresh _ labelled again
    | unknownMnemonic _ stated unknown =>
        obtain ⟨directive, asked, -⟩ := known _ stated
        cases unknown.symm.trans asked
    | unexpectedOperand _ stated asked surplus =>
        obtain ⟨directive, same, bounded⟩ := known _ stated
        cases asked.symm.trans same
        rw [List.getElem?_eq_none bounded] at surplus
        cases surplus

/-- No line offends if and only if labels differ and every statement is known. -/
theorem fine_iff :
    Fine lines ↔ (labels lines).Nodup ∧ ∀ written ∈ statements lines, ∃ directive,
      Directive.ofMnemonic? written.1 = some directive ∧ written.2.length ≤ directive.arity := by
  induction lines using List.reverseRecOn with
  | nil => simp [Fine, labels, statements]
  | append_singleton lines line ih =>
      rw [fine_concat, ih, inoffensive_iff, labels_concat, statements_append, statements_singleton,
        List.nodup_append]
      have nodup : (parse line).label.toList.Nodup := by
        cases (parse line).label <;> simp
      have apart : (∀ other ∈ labels lines, ∀ label, (parse line).label = some label →
          other ≠ label) ↔ ∀ label, (parse line).label = some label → label ∉ labels lines :=
        ⟨fun apart label labelled member => apart label member label labelled rfl,
          fun fresh other member label labelled same => fresh label labelled (same ▸ member)⟩
      simp only [nodup, true_and, List.forall_mem_append, Option.mem_toList, apart]
      exact and_and_and_comm

/-! ## Numbered statements -/

/-- The statements of some lines with the numbers of their lines, from one. -/
def numbered (lines : List (List Char)) : List (Nat × List Char × List (List Char)) :=
  lines.zipIdx.filterMap fun (line, index) =>
    (parse line).statement.map fun written => (index + 1, written)

theorem numbered_concat :
    numbered (lines ++ [line]) =
      numbered lines ++
        ((parse line).statement.map fun written => (lines.length + 1, written)).toList := by
  rw [numbered, List.zipIdx_append, List.filterMap_append, ← numbered]
  simp only [List.zipIdx_cons, List.zipIdx_nil, List.filterMap_cons, Nat.zero_add]
  cases (parse line).statement <;> rfl

theorem map_numbered : (numbered lines).map (·.2) = statements lines := by
  induction lines using List.reverseRecOn with
  | nil => rfl
  | append_singleton lines line ih =>
      rw [numbered_concat, List.map_append, ih, statements_append, statements_singleton]
      cases (parse line).statement <;> rfl

/-- A numbered statement stands on the line of its number. -/
theorem exists_of_numbered {written : List Char × List (List Char)}
    {front rear : List (Nat × List Char × List (List Char))}
    (split : numbered lines = front ++ (number, written) :: rear) :
    ∃ before line behind, lines = before ++ line :: behind ∧
      (parse line).statement = some written ∧ number = before.length + 1 ∧
      numbered before = front := by
  induction lines using List.reverseRecOn generalizing rear with
  | nil => exact absurd split (by simp [numbered])
  | append_singleton lines line ih =>
      have earlier {rear} (split : numbered lines = front ++ (number, written) :: rear) :
          ∃ before found behind, lines ++ [line] = before ++ found :: behind ∧
            (parse found).statement = some written ∧ number = before.length + 1 ∧
            numbered before = front := by
        obtain ⟨before, found, behind, rfl, rest⟩ := ih split
        exact ⟨before, found, behind ++ [line], by simp, rest⟩
      rw [numbered_concat] at split
      cases stated : (parse line).statement with
      | none =>
          rw [stated, Option.map_none, Option.toList_none, List.append_nil] at split
          exact earlier split
      | some last =>
          rw [stated, Option.map_some, Option.toList_some] at split
          rcases concat_eq_append_cons_iff.mp split with ⟨rfl, same, -⟩ | ⟨between, -, split⟩
          · obtain ⟨rfl, rfl⟩ := Prod.mk.inj same
            exact ⟨lines, line, [], rfl, stated, rfl, rfl⟩
          · exact earlier split

theorem exists_numbered {written : List Char × List (List Char)}
    (stated : (parse line).statement = some written) :
    ∃ rear, numbered (before ++ line :: behind) =
      numbered before ++ (before.length + 1, written) :: rear := by
  induction behind using List.reverseRecOn with
  | nil =>
      rw [numbered_concat, stated]
      exact ⟨[], rfl⟩
  | append_singleton behind last ih =>
      obtain ⟨rear, split⟩ := ih
      rw [← List.cons_append, ← List.append_assoc, numbered_concat, split, List.append_assoc]
      exact ⟨_, rfl⟩

end BitSerial.Grammar
