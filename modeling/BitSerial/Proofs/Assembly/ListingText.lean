import BitSerial.Proofs.Assembly.LabelTables
import BitSerial.Proofs.Assembly.Names
import BitSerial.Proofs.Assembly.WordText

/-!
# The lines of a listing

A listing is a heading of comments and blank lines, and then for each word the lines of
its labels and a line of its own.  Every line is read for what it was written: comments
for nothing, a label for that label, and the line of a word for the word's statement,
whatever its comment says.  The addresses in it are counts if there is room for an operand
behind the base.
-/

namespace BitSerial

namespace Text

/-- Text with no blanks but spaces. -/
def Spaced (text : List Char) : Prop :=
  ∀ char ∈ text, char = ' ' ∨ isBlank char = false

instance (text : List Char) : Decidable (Spaced text) :=
  List.decidableBAll (fun char => char = ' ' ∨ isBlank char = false) text

theorem Spaced.append {left right : List Char} (isLeft : Spaced left) (isRight : Spaced right) :
    Spaced (left ++ right) :=
  List.forall_mem_append.mpr ⟨isLeft, isRight⟩

theorem spaced_replicate (count : Nat) : Spaced (List.replicate count ' ') :=
  fun _ member => .inl (List.eq_of_mem_replicate member)

theorem spaced_of_isCapital {text : List Char}
    (capital : ∀ char ∈ text, isCapital char = true) : Spaced text :=
  fun char member => .inr (not_isBlank_of_isCapital (capital char member))

/-- Such text can be read as one line. -/
theorem Spaced.isLine {text : List Char} (spaced : Spaced text) : IsLine text where
  unbroken member := by
    rcases spaced '\n' member with same | solid
    · cases same
    · cases solid
  unreturned last := by
    rcases spaced '\r' (List.mem_of_getLast? last) with same | solid
    · cases same
    · cases solid

end Text

theorem Word.spaced_text (word : Word) : Text.Spaced word.text := by
  intro char member
  rw [Word.text_eq] at member
  rcases Text.mem_unwords member with space | ⟨token, listed, inToken⟩
  · exact .inl space
  · exact .inr ((word.isToken_of_mem_tokens token listed).isRun.solid char inToken)

theorem Word.not_mem_text (word : Word) : ';' ∉ word.text := by
  intro member
  rw [Word.text_eq] at member
  rcases Text.mem_unwords member with space | ⟨token, listed, inToken⟩
  · cases space
  · exact absurd ((word.isToken_of_mem_tokens token listed).inert ';' inToken) (by decide)

namespace Listing

/-! ## Lines -/

/-- What the line of a word says behind the semicolon. -/
def remark (base index : Nat) (word : Word) : List Char :=
  ' ' :: Numeral.padded 4 (address base index) ++ "  ".toList ++ Word.display word ++ note base word

/-- The line of a word without its end. -/
def wordText (base index : Nat) (word : Word) : List Char :=
  List.replicate 8 ' ' ++ (word.text ++ (List.replicate (20 - word.text.length) ' ' ++ [' '])) ++
    ';' :: remark base index word

/-- The line of a label without its end. -/
def labelText (label : String) : List Char :=
  label.toList ++ [':']

/-- The lines in front of the first word, without their ends. -/
def headingTexts (program : Program) : List (List Char) :=
  ["; Delay-line disassembly".toList,
    "; ".toList ++ Numeral.decimal program.size ++ " words, base address ".toList ++
      Numeral.decimal program.base,
    []]

/-- The lines of the words from an index on, without their ends. -/
def bodyTexts (program : Program) : Nat → List Word → List (List Char)
  | _, [] => []
  | index, word :: rest =>
      (program.labelsAt index).map labelText ++ wordText program.base index word ::
        bodyTexts program (index + 1) rest

theorem wordLine_eq (base index : Nat) (word : Word) :
    wordLine base index word = wordText base index word ++ ['\n'] := by
  simp [wordLine, wordText, remark, List.rightpad]

theorem heading_eq (program : Program) :
    heading program = (headingTexts program).flatMap fun text => text ++ ['\n'] := by
  have first : "; Delay-line disassembly\n; ".toList =
      "; Delay-line disassembly".toList ++ '\n' :: "; ".toList := by decide
  unfold heading
  simp only [first, headingTexts, List.flatMap_cons, List.flatMap_nil, List.append_assoc,
    List.cons_append, List.nil_append]

theorem body_eq (program : Program) (index : Nat) (words : List Word) :
    body program index words =
      (bodyTexts program index words).flatMap fun text => text ++ ['\n'] := by
  induction words generalizing index with
  | nil => rfl
  | cons word rest ih =>
      rw [body, bodyTexts, List.flatMap_append, List.flatMap_cons, List.flatMap_map, ih,
        wordLine_eq, List.append_assoc]
      congr 1
      apply List.flatMap_congr
      intro label _
      simp [labelLine, labelText]

/-! ## Each line by itself -/

theorem spaced_address (base offset : Nat) : Text.Spaced (address base offset) :=
  Text.spaced_of_isCapital Numeral.isCapital_of_mem_decimal

theorem spaced_display (word : Word) : Text.Spaced word.display := by
  have digits (width value : Nat) :
      Text.Spaced (Numeral.padded width (Numeral.hexadecimal value)) :=
    Text.spaced_of_isCapital (Numeral.isCapital_of_mem_padded Numeral.isCapital_of_mem_hexadecimal)
  have space : Text.Spaced [' '] := by decide
  exact (digits _ _).append (space.append (digits _ _))

theorem spaced_note (base : Nat) (word : Word) : Text.Spaced (note base word) := by
  rw [note]
  split
  · have arrow : Text.Spaced " -> ".toList := by decide
    exact arrow.append (spaced_address _ _)
  · exact fun _ member => nomatch member

theorem spaced_remark (base index : Nat) (word : Word) :
    Text.Spaced (remark base index word) := by
  have space : Text.Spaced [' '] := by decide
  have spaces : Text.Spaced "  ".toList := by decide
  have number : Text.Spaced (Numeral.padded 4 (address base index)) :=
    Text.spaced_of_isCapital (Numeral.isCapital_of_mem_padded Numeral.isCapital_of_mem_decimal)
  exact (((space.append number).append spaces).append (spaced_display word)).append
    (spaced_note base word)

theorem isLine_wordText (base index : Nat) (word : Word) :
    Text.IsLine (wordText base index word) := by
  have space : Text.Spaced [' '] := by decide
  have semicolon : Text.Spaced [';'] := by decide
  have padding := (Text.spaced_replicate (20 - word.text.length)).append space
  have front := (Text.spaced_replicate 8).append (word.spaced_text.append padding)
  exact (front.append (semicolon.append (spaced_remark base index word))).isLine

theorem isLine_labelText {label : String} (isLabel : SourceLine.IsLabel label.toList) :
    Text.IsLine (labelText label) where
  unbroken member := by
    rcases List.mem_append.mp member with inLabel | inMark
    · exact isLabel.unbroken inLabel
    · exact absurd inMark (by decide)
  unreturned last := by
    rw [labelText, List.getLast?_append] at last
    cases last

theorem isLine_of_mem_headingTexts {program : Program} :
    ∀ text ∈ headingTexts program, Text.IsLine text := by
  have first : Text.Spaced "; Delay-line disassembly".toList := by decide
  have mark : Text.Spaced "; ".toList := by decide
  have between : Text.Spaced " words, base address ".toList := by decide
  have number (value : Nat) : Text.Spaced (Numeral.decimal value) :=
    Text.spaced_of_isCapital Numeral.isCapital_of_mem_decimal
  have empty : Text.Spaced [] := fun _ member => nomatch member
  intro text member
  rcases List.mem_cons.mp member with rfl | member
  · exact first.isLine
  · rcases List.mem_cons.mp member with rfl | member
    · exact (((mark.append (number _)).append between).append (number _)).isLine
    · rw [List.mem_singleton.mp member]
      exact empty.isLine

theorem isLine_of_mem_bodyTexts {program : Program}
    (isLabel : ∀ entry ∈ program.labels.entries, SourceLine.IsLabel entry.1.toList) (index : Nat)
    (words : List Word) : ∀ text ∈ bodyTexts program index words, Text.IsLine text := by
  induction words generalizing index with
  | nil => exact fun _ member => nomatch member
  | cons word rest ih =>
      intro text member
      rcases List.mem_append.mp member with inLabels | others
      · obtain ⟨label, named, rfl⟩ := List.mem_map.mp inLabels
        exact isLine_labelText (isLabel _ (LabelTable.mem_namesAt.mp named))
      · rcases List.mem_cons.mp others with rfl | later
        · exact isLine_wordText _ _ _
        · exact ih (index + 1) text later

/-- These are the lines of a listing. -/
theorem lines_listing {program : Program}
    (isLabel : ∀ entry ∈ program.labels.entries, SourceLine.IsLabel entry.1.toList) :
    Text.lines program.listing.toList =
      headingTexts program ++ bodyTexts program 0 program.words := by
  rw [Program.listing, String.toList_ofList, heading_eq, body_eq, ← List.flatMap_append]
  apply Text.lines_flatMap
  intro text member
  rcases List.mem_append.mp member with inHeading | inBody
  · exact isLine_of_mem_headingTexts text inHeading
  · exact isLine_of_mem_bodyTexts isLabel 0 program.words text inBody

/-! ## What is read -/

/-- A comment is read for nothing. -/
theorem parse_comment (text : List Char) : SourceLine.parse (';' :: text) = ⟨none, none⟩ :=
  rfl

theorem parse_of_mem_headingTexts {program : Program} :
    ∀ text ∈ headingTexts program, SourceLine.parse text = ⟨none, none⟩ := by
  intro text member
  rcases List.mem_cons.mp member with rfl | member
  · exact parse_comment _
  · rcases List.mem_cons.mp member with rfl | member
    · exact parse_comment _
    · rw [List.mem_singleton.mp member]
      rfl

/-- The line of a word is read for its statement. -/
theorem parse_wordText (base index : Nat) (word : Word) (number : Nat) :
    SourceLine.parse (wordText base index word) =
      ⟨none, some (word.statement number).written⟩ := by
  have blank (count : Nat) : ∀ char ∈ List.replicate count ' ', Text.isBlank char = true := by
    intro char member
    rw [List.eq_of_mem_replicate member]
    rfl
  have padding : ∀ char ∈ List.replicate (20 - word.text.length) ' ' ++ [' '],
      Text.isBlank char = true :=
    List.forall_mem_append.mpr ⟨blank _, blank 1⟩
  apply SourceLine.parse_text (blank 8) padding
  -- The comment begins at the first semicolon.
  rw [wordText, List.takeWhile_append_of_pos]
  · simp
  · intro char member
    rw [decide_eq_true_eq]
    rintro rfl
    rcases List.mem_append.mp member with inFront | behind
    · exact absurd (List.eq_of_mem_replicate inFront) (by decide)
    · rcases List.mem_append.mp behind with inText | inPadding
      · exact word.not_mem_text inText
      · exact absurd (padding ';' inPadding) (by decide)

/-- The line of a label is read for that label. -/
theorem parse_labelText {label : String} (isLabel : SourceLine.IsLabel label.toList) :
    SourceLine.parse (labelText label) = ⟨some label.toList, none⟩ := by
  have unmarked {mark : Char} (absent : mark ∉ label.toList) :
      ∀ char ∈ label.toList, decide (char ≠ mark) = true := by
    intro char member
    rw [decide_eq_true_eq]
    rintro rfl
    exact absent member
  have uncommented : (labelText label).takeWhile (· ≠ ';') = labelText label := by
    rw [labelText, List.takeWhile_append_of_pos (unmarked isLabel.noSemicolon)]
    rfl
  have colon : Text.Trimmed [':'] := Text.trimmed_of_solid (List.forall_mem_singleton.mpr rfl)
  have trimmed : Text.Trimmed (labelText label) := by
    have appended := isLabel.trimmed.append colon isLabel.some (List.cons_ne_nil _ _) []
    rwa [List.append_nil] at appended
  have isCode : SourceLine.code (labelText label) = label.toList ++ [':'] := by
    rw [SourceLine.code, uncommented, trimmed.trim, labelText]
  have rest : (label.toList ++ [':']).dropWhile (· ≠ ':') = [':'] := by
    rw [List.dropWhile_append_of_pos (unmarked isLabel.noColon)]
    rfl
  have before : (label.toList ++ [':']).takeWhile (· ≠ ':') = label.toList := by
    rw [List.takeWhile_append_of_pos (unmarked isLabel.noColon)]
    exact List.append_nil _
  have named : SourceLine.label? label.toList = some label.toList := by
    rw [SourceLine.label?, isLabel.trimmed.trim, isLabel.upper]
    split
    · rename_i empty
      exact absurd empty isLabel.some
    · rfl
  rw [SourceLine.parse, isCode, SourceLine.splitLabel, rest, before]
  dsimp only
  rw [named]
  rfl

end Listing

/-! ## Addresses in a listing -/

theorem Word.jumpOffset?_lt {word : Word} {offset : Nat}
    (jumps : word.jumpOffset? = some offset) : offset < operandLimit := by
  rw [jumpOffset?] at jumps
  split at jumps <;> cases jumps
  all_goals exact BitVec.isLt _

/-- An address that is shown is one of a word or as far from the base as an operand says. -/
theorem Listing.lt_of_mem_addresses {base index address : Nat} {words : List Word}
    (shown : address ∈ addresses base index words) :
    address < base + index + words.length ∨ address < base + operandLimit := by
  induction words generalizing index with
  | nil => cases shown
  | cons word rest ih =>
      rw [List.length_cons]
      rcases List.mem_append.mp shown with own | later
      · rcases List.mem_cons.mp own with rfl | target
        · exact .inl (by omega)
        · obtain ⟨offset, jumps, rfl⟩ := Option.map_eq_some_iff.mp (Option.mem_toList.mp target)
          have near := Word.jumpOffset?_lt jumps
          exact .inr (by omega)
      · exact (ih later).imp_left fun inside => by omega

namespace Program

/-- All addresses are counts if those of the words are and there is room for an operand
behind the base. -/
theorem listing?_eq_some {program : Program} (inside : program.base + program.size ≤ countLimit)
    (room : program.base + operandLimit ≤ countLimit) :
    program.listing? = some program.listing := by
  refine if_pos (List.all_eq_true.mpr fun address shown => decide_eq_true ?_)
  rcases Listing.lt_of_mem_addresses shown with word | target
  · exact Nat.lt_of_lt_of_le word inside
  · exact Nat.lt_of_lt_of_le target room

end Program

end BitSerial
