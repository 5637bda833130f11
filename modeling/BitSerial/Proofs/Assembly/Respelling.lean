import BitSerial.Proofs.Assembly.Alikeness
import BitSerial.Proofs.Text.Letters
import Mathlib.Logic.Relation

/-!
# Sources that are spelled differently

Layout and the case of letters do not matter: a source may be laid out anew, commented and
spelled in other letters, and is assembled to the same program.  A label may be moved to a
line of its own and back, but only from and to an instruction in which there is no other
colon, since a line is searched for its first colon alone.
-/

namespace BitSerial

namespace SourceLine

open Text (isBlank capitals IsRun IsBreak)

/-! ## Statements -/

/-- What stands between two operands. -/
def separates (char : Char) : Bool :=
  isBlank char || char = ','

theorem operands_words (text : List Char) :
    operands (Text.words text) = (Text.runs separates text).map Text.upper := by
  rw [operands, Text.words, Text.flatMap_runs]
  rfl

/-- Blanks around a statement are not seen. -/
theorem statement?_around {before behind : List Char}
    (beforeBlank : ∀ char ∈ before, isBlank char = true)
    (behindBlank : ∀ char ∈ behind, isBlank char = true) (text : List Char) :
    statement? (before ++ (text ++ behind)) = statement? text := by
  rw [statement?, Text.words, Text.runs_around beforeBlank behindBlank]
  rfl

theorem statement?_lead {lead : List Char} (leadBlank : ∀ char ∈ lead, isBlank char = true)
    (text : List Char) : statement? (lead ++ text) = statement? text := by
  rw [statement?, Text.words, Text.runs_append_of_separates leadBlank]
  rfl

theorem statement?_trim (text : List Char) : statement? (Text.trim text) = statement? text := by
  obtain ⟨before, behind, beforeBlank, behindBlank, split⟩ := Text.exists_trim text
  rw [← statement?_around beforeBlank behindBlank (Text.trim text), ← split]

/-- A mnemonic ends at the first blank, and operands come behind it. -/
theorem statement?_of_mnemonic {mnemonic gap : List Char} (isWord : IsRun isBlank mnemonic)
    (isGap : IsBreak isBlank gap) (rest : List Char) :
    statement? (mnemonic ++ (gap ++ rest)) =
      some (Text.upper mnemonic, (Text.runs separates rest).map Text.upper) := by
  rw [statement?, Text.words, isGap.runs_append, isWord.runs_eq]
  exact congrArg (fun operands => some (Text.upper mnemonic, operands)) (operands_words rest)

theorem operands_capitals (words : List (List Char)) :
    operands (words.map capitals) = operands words := by
  have comma := Text.apply_toUpper (fun char => decide (char = ',')) (by decide +kernel)
  have same : Text.upper ∘ capitals = Text.upper := funext Text.upper_capitals
  induction words with
  | nil => rfl
  | cons word words ih =>
      have behind (word : List Char) : operands (word :: words) =
          (Text.runs (· = ',') word).map Text.upper ++ operands words := by
        rw [operands, List.flatMap_cons, List.map_append]
        rfl
      rw [List.map_cons, behind, ← ih, operands, List.flatMap_cons, List.map_append,
        Text.runs_capitals comma, List.map_map, same]
      rfl

theorem statement?_capitals (text : List Char) :
    statement? (capitals text) = statement? text := by
  rw [statement?, statement?, Text.words, Text.runs_capitals Text.isBlank_toUpper, ← Text.words]
  cases Text.words text with
  | nil => rfl
  | cons mnemonic rest =>
      rw [List.map_cons]
      dsimp only
      rw [Text.upper_capitals, operands_capitals]

/-! ## Lines -/

theorem label?_around {before : List Char} (beforeBlank : ∀ char ∈ before, isBlank char = true)
    (text : List Char) : label? (before ++ text) = label? text := by
  have trimmed := Text.trim_around beforeBlank (List.forall_mem_nil _) text
  rw [List.append_nil] at trimmed
  rw [label?, trimmed]
  rfl

theorem ne_of_not_mem {mark : Char} {text : List Char} (absent : mark ∉ text) :
    ∀ char ∈ text, decide (char ≠ mark) = true := by
  intro char member
  rw [decide_eq_true_eq]
  rintro rfl
  exact absent member

theorem splitLabel_append {name : List Char} (noColon : ':' ∉ name) (text : List Char) :
    splitLabel (name ++ ':' :: text) = (label? name, text) := by
  have before := ne_of_not_mem noColon
  rw [splitLabel, List.dropWhile_append_of_pos before, List.takeWhile_append_of_pos before]
  simp

theorem splitLabel_of_not_mem {text : List Char} (noColon : ':' ∉ text) :
    splitLabel text = (none, text) := by
  have nothing : text.dropWhile (· ≠ ':') = [] :=
    List.dropWhile_eq_nil_iff.mpr (ne_of_not_mem noColon)
  rw [splitLabel, nothing]

/-- Blanks around a line change neither the label nor the statement that are read. -/
theorem splitLabel_trim (text : List Char) :
    (splitLabel (Text.trim text)).1 = (splitLabel text).1 ∧
      statement? (splitLabel (Text.trim text)).2 = statement? (splitLabel text).2 := by
  by_cases colon : ':' ∈ text
  · obtain ⟨before, behind, beforeBlank, behindBlank, split⟩ := Text.exists_trim text
    have inside : ':' ∈ Text.trim text := by
      rw [split, List.mem_append, List.mem_append] at colon
      rcases colon with front | inside | back
      · cases beforeBlank _ front
      · exact inside
      · cases behindBlank _ back
    obtain ⟨name, rest, isTrimmed, noColon⟩ := List.eq_append_cons_of_mem inside
    have whole : text = (before ++ name) ++ ':' :: (rest ++ behind) := by
      rw [split, isTrimmed]
      simp
    have stillNone : ':' ∉ before ++ name := by
      rw [List.mem_append, not_or]
      exact ⟨fun front => (by cases beforeBlank _ front), noColon⟩
    have around := statement?_around (List.forall_mem_nil _) behindBlank rest
    rw [isTrimmed, whole, splitLabel_append noColon, splitLabel_append stillNone]
    exact ⟨(label?_around beforeBlank name).symm, around.symm⟩
  · rw [splitLabel_of_not_mem colon, splitLabel_of_not_mem fun inside =>
      colon (Text.mem_of_mem_trim inside)]
    exact ⟨rfl, statement?_trim text⟩

/-- Without a comment a line is read off its own text. -/
theorem parse_of_bare {line : List Char} (bare : ';' ∉ line) :
    parse line = ⟨(splitLabel line).1, statement? (splitLabel line).2⟩ := by
  have whole : line.takeWhile (· ≠ ';') = line :=
    List.takeWhile_eq_self_iff.mpr (ne_of_not_mem bare)
  obtain ⟨label, rest⟩ := splitLabel_trim line
  rw [← label, ← rest, parse, code, whole]

theorem takeWhile_commented (text comment : List Char) :
    (text ++ ';' :: comment).takeWhile (· ≠ ';') = text.takeWhile (· ≠ ';') := by
  induction text with
  | nil => simp
  | cons char text ih => rw [List.cons_append, List.takeWhile_cons, List.takeWhile_cons, ih]

/-- A comment is not read. -/
theorem parse_commented (text comment : List Char) :
    parse (text ++ ';' :: comment) = parse text := by
  rw [parse, code, takeWhile_commented]
  rfl

theorem code_around {before behind : List Char}
    (beforeBlank : ∀ char ∈ before, isBlank char = true)
    (behindBlank : ∀ char ∈ behind, isBlank char = true) (line : List Char) :
    code (before ++ (line ++ behind)) = code line := by
  have inCode {blanks : List Char} (blank : ∀ char ∈ blanks, isBlank char = true) :
      ∀ char ∈ blanks, decide (char ≠ ';') = true :=
    ne_of_not_mem fun member => (by cases blank _ member)
  have front := Text.trim_around beforeBlank (List.forall_mem_nil _) (line.takeWhile (· ≠ ';'))
  have both := Text.trim_around beforeBlank behindBlank (line.takeWhile (· ≠ ';'))
  rw [code, code, List.takeWhile_append_of_pos (inCode beforeBlank)]
  by_cases commented : ';' ∈ line
  · obtain ⟨text, comment, rfl, -⟩ := List.eq_append_cons_of_mem commented
    rw [List.append_nil, takeWhile_commented] at front
    rw [List.append_assoc, List.cons_append, takeWhile_commented, takeWhile_commented, front]
  · have whole := List.takeWhile_eq_self_iff.mpr (ne_of_not_mem commented)
    rw [whole] at both ⊢
    rw [List.takeWhile_append_of_pos (ne_of_not_mem commented),
      List.takeWhile_eq_self_iff.mpr (inCode behindBlank), both]

/-- Blanks around a line are not read, whether or not they stand behind a comment. -/
theorem parse_around {before behind : List Char}
    (beforeBlank : ∀ char ∈ before, isBlank char = true)
    (behindBlank : ∀ char ∈ behind, isBlank char = true) (line : List Char) :
    parse (before ++ (line ++ behind)) = parse line := by
  rw [parse, code_around beforeBlank behindBlank]
  rfl

/-- Case does not make a mark of a character, if it makes none in ASCII. -/
theorem ne_toUpper {mark : Char} (apart : ∀ code < 128,
      decide ((Char.ofNat code).toUpper ≠ mark) = decide (Char.ofNat code ≠ mark)) (char : Char) :
    decide (char.toUpper ≠ mark) = decide (char ≠ mark) :=
  Text.apply_toUpper (fun char => decide (char ≠ mark)) apart char

theorem code_capitals (line : List Char) : code (capitals line) = capitals (code line) := by
  have semicolon := @ne_toUpper ';' (by decide +kernel)
  rw [code, Text.takeWhile_capitals semicolon, Text.trim_capitals]
  rfl

theorem label?_capitals (text : List Char) : label? (capitals text) = label? text := by
  rw [label?, Text.trim_capitals, Text.upper_capitals]
  rfl

theorem splitLabel_capitals (text : List Char) :
    splitLabel (capitals text) = ((splitLabel text).1, capitals (splitLabel text).2) := by
  have colon := @ne_toUpper ':' (by decide +kernel)
  rw [splitLabel, splitLabel, Text.dropWhile_capitals colon, Text.takeWhile_capitals colon]
  cases text.dropWhile (· ≠ ':') with
  | nil => rfl
  | cons mark rest =>
      rw [label?_capitals]
      rfl

/-- A line is read the same with capitals for its ASCII letters. -/
theorem parse_capitals (line : List Char) : parse (capitals line) = parse line := by
  rw [parse, code_capitals, splitLabel_capitals]
  dsimp only
  rw [statement?_capitals]
  rfl

theorem parse_of_vacant {line : List Char} (vacant : code line = []) :
    parse line = ⟨none, none⟩ := by
  rw [parse, vacant]
  rfl

/-- What stands before a statement on its line: nothing, or a label with its colon. -/
inductive Heads : List Char → List Char → Prop
  | nothing {text : List Char} (noColon : ':' ∉ text) : Heads [] text
  | label {name : List Char} (noColon : ':' ∉ name) (text : List Char) :
      Heads (name ++ [':']) text

theorem Heads.parse {front text : List Char} (heads : Heads front text)
    (bare : ';' ∉ front ++ text) :
    parse (front ++ text) = ⟨(splitLabel front).1, statement? text⟩ := by
  rw [parse_of_bare bare]
  cases heads with
  | nothing noColon =>
      rw [List.nil_append, splitLabel_of_not_mem noColon]
      rfl
  | @label name noColon =>
      rw [List.append_assoc, List.singleton_append, splitLabel_append noColon,
        splitLabel_append noColon]

/-- Part of a text may be exchanged for what holds no mark and leaves the statement. -/
theorem Heads.parse_exchange {front stem old new rest : List Char}
    (heads : Heads front (stem ++ (old ++ rest))) (bare : ';' ∉ front ++ (stem ++ (old ++ rest)))
    (noColon : ':' ∉ new) (noSemicolon : ';' ∉ new)
    (same : statement? (stem ++ (old ++ rest)) = statement? (stem ++ (new ++ rest))) :
    SourceLine.parse (front ++ (stem ++ (old ++ rest))) =
      SourceLine.parse (front ++ (stem ++ (new ++ rest))) := by
  have kept {mark : Char} (absent : mark ∉ new) (member : mark ∈ stem ++ (new ++ rest)) :
      mark ∈ stem ++ (old ++ rest) := by
    rw [List.mem_append, List.mem_append] at member ⊢
    exact member.imp_right fun behind => .inr (behind.resolve_left absent)
  have bareNew : ';' ∉ front ++ (stem ++ (new ++ rest)) := by
    rw [List.mem_append, not_or] at bare ⊢
    exact ⟨bare.1, mt (kept noSemicolon) bare.2⟩
  have headsNew : Heads front (stem ++ (new ++ rest)) := by
    cases heads with
    | nothing free => exact .nothing (mt (kept noColon) free)
    | label free => exact .label free _
  rw [heads.parse bare, headsNew.parse bareNew, same]

/-! ## Changes to a line -/

/-- A line that is spelled differently.  What is changed behind a mnemonic is changed on a
line without a comment, which may have been taken off and may be put back. -/
inductive Respells : List Char → List Char → Prop
  /-- ASCII letters change their case. -/
  | letters {old new : List Char} (same : capitals old = capitals new) : Respells old new
  /-- A comment is put behind the line. -/
  | comment (text comment : List Char) : Respells text (text ++ ';' :: comment)
  /-- Blanks are put before the line and behind it. -/
  | blanks {before behind : List Char} (beforeBlank : ∀ char ∈ before, isBlank char = true)
      (behindBlank : ∀ char ∈ behind, isBlank char = true) (line : List Char) :
      Respells line (before ++ (line ++ behind))
  /-- Blanks behind the mnemonic are exchanged. -/
  | gap {front lead mnemonic old new rest : List Char}
      (heads : Heads front (lead ++ mnemonic ++ (old ++ rest)))
      (bare : ';' ∉ front ++ (lead ++ mnemonic ++ (old ++ rest)))
      (leadBlank : ∀ char ∈ lead, isBlank char = true) (isWord : IsRun isBlank mnemonic)
      (oldGap : IsBreak isBlank old) (newGap : IsBreak isBlank new) :
      Respells (front ++ (lead ++ mnemonic ++ (old ++ rest)))
        (front ++ (lead ++ mnemonic ++ (new ++ rest)))
  /-- A separator further behind it is exchanged. -/
  | separator {front lead mnemonic gap before old new rest : List Char}
      (heads : Heads front (lead ++ mnemonic ++ gap ++ before ++ (old ++ rest)))
      (bare : ';' ∉ front ++ (lead ++ mnemonic ++ gap ++ before ++ (old ++ rest)))
      (leadBlank : ∀ char ∈ lead, isBlank char = true) (isWord : IsRun isBlank mnemonic)
      (isGap : IsBreak isBlank gap) (oldBreak : IsBreak separates old)
      (newBreak : IsBreak separates new) :
      Respells (front ++ (lead ++ mnemonic ++ gap ++ before ++ (old ++ rest)))
        (front ++ (lead ++ mnemonic ++ gap ++ before ++ (new ++ rest)))

theorem Respells.parse_eq {old new : List Char} (respells : Respells old new) :
    parse old = parse new := by
  cases respells with
  | letters same => rw [← parse_capitals old, same, parse_capitals]
  | comment _ comment => exact (parse_commented old comment).symm
  | blanks beforeBlank behindBlank => exact (parse_around beforeBlank behindBlank old).symm
  | gap heads bare leadBlank isWord oldGap newGap =>
      apply heads.parse_exchange bare (newGap.not_mem rfl) (newGap.not_mem rfl)
      simp only [List.append_assoc, statement?_lead leadBlank, statement?_of_mnemonic isWord oldGap,
        statement?_of_mnemonic isWord newGap]
  | separator heads bare leadBlank isWord isGap oldBreak newBreak =>
      apply heads.parse_exchange bare (newBreak.not_mem rfl) (newBreak.not_mem rfl)
      simp only [List.append_assoc, statement?_lead leadBlank, statement?_of_mnemonic isWord isGap,
        oldBreak.runs_append, newBreak.runs_append]

end SourceLine

namespace Grammar

open SourceLine (Heads Respells code parse statements)

/-! ## Changes to a source -/

/-- Lines that are laid out differently. -/
inductive Relaid : List (List Char) → List (List Char) → Prop
  /-- One of them is spelled differently. -/
  | line {old new : List Char} (respells : Respells old new) (above below : List (List Char)) :
      Relaid (above ++ [old] ++ below) (above ++ [new] ++ below)
  /-- A line comes in that is blank or only a comment. -/
  | vacant {line : List Char} (vacant : code line = []) (above below : List (List Char)) :
      Relaid (above ++ [] ++ below) (above ++ [line] ++ below)
  /-- A label moves from a line of its own to the instruction behind it, with its colon,
  which is the only one there. -/
  | label {name text : List Char} {middle : List (List Char)} (nameColon : ':' ∉ name)
      (textColon : ':' ∉ text) (bare : ';' ∉ name ++ [':'] ++ text)
      (unstated : statements middle = []) (above below : List (List Char)) :
      Relaid (above ++ ((name ++ [':']) :: middle ++ [text]) ++ below)
        (above ++ (middle ++ [name ++ [':'] ++ text]) ++ below)

theorem Relaid.alike {left right : List (List Char)} (relaid : Relaid left right) :
    Alike left right := by
  cases relaid with
  | line respells above below => exact (alike_of_parse respells.parse_eq).between above below
  | vacant vacant above below =>
      exact (alike_vacant (SourceLine.parse_of_vacant vacant)).between above below
  | @label name text middle nameColon textColon bare unstated above below =>
      have both := (Heads.label nameColon text).parse bare
      have noSemicolon : ';' ∉ name ++ [':'] ∧ ';' ∉ text := by
        rwa [List.mem_append, not_or] at bare
      have alone : parse (name ++ [':']) = ⟨(SourceLine.splitLabel (name ++ [':'])).1, none⟩ := by
        have parsed := (Heads.label nameColon []).parse (by simpa using noSemicolon.1)
        rwa [List.append_nil] at parsed
      have bare : parse text = ⟨none, SourceLine.statement? text⟩ :=
        (Heads.nothing textColon).parse noSemicolon.2
      exact (alike_label alone bare both unstated).between above below

/-- Lines with line feeds between them. -/
def joined (lines : List (List Char)) : List Char :=
  ['\n'].intercalate lines

theorem parse_endLine (line : List Char) : parse (Text.endLine line.reverse) = parse line := by
  rw [Text.endLine.eq_def]
  split
  · rename_i rest ends
    have returned : line = [] ++ (rest.reverse ++ ['\r']) := by
      rw [← List.reverse_reverse line, ends, List.reverse_cons, List.nil_append]
    rw [returned,
      SourceLine.parse_around (List.forall_mem_nil _) (List.forall_mem_singleton.mpr rfl)]
  · rw [List.reverse_reverse]

/-- The lines that are read are those between line feeds, but for carriage returns at
their ends, and for an empty one behind the last line feed. -/
theorem alike_lines_joined {lines : List (List Char)} (unbroken : ∀ line ∈ lines, '\n' ∉ line) :
    Alike (Text.lines (joined lines)) lines := by
  induction lines with
  | nil => exact .refl _
  | cons first rest ih =>
      obtain ⟨firstUnbroken, restUnbroken⟩ := List.forall_mem_cons.mp unbroken
      have read := Text.linesFrom_append firstUnbroken []
      rw [List.append_nil] at read
      cases rest with
      | nil =>
          rw [joined, List.intercalate_singleton, ← List.append_nil first, Text.lines, read,
            List.append_nil]
          cases first with
          | nil => exact alike_vacant rfl
          | cons char first =>
              rw [Text.linesFrom, List.reverse_reverse]
              · exact .refl _
              · exact mt List.reverse_eq_nil_iff.mp (List.cons_ne_nil _ _)
      | cons second rest =>
          rw [joined, List.intercalate_cons_cons, List.append_assoc, Text.lines, read,
            List.singleton_append, Text.linesFrom, if_pos rfl]
          exact (alike_of_parse (parse_endLine first)).append (ih restUnbroken)

/-- One source comes from another by one change. -/
def Changes (source other : String) : Prop :=
  ∃ lines others, Relaid lines others ∧ (∀ line ∈ lines ++ others, '\n' ∉ line) ∧
    source.toList = joined lines ∧ other.toList = joined others

theorem Changes.alike {source other : String} (changes : Changes source other) :
    Alike (Text.lines source.toList) (Text.lines other.toList) := by
  obtain ⟨lines, others, relaid, unbroken, isSource, isOther⟩ := changes
  obtain ⟨left, right⟩ := List.forall_mem_append.mp unbroken
  rw [isSource, isOther]
  exact ((alike_lines_joined left).trans relaid.alike).trans (alike_lines_joined right).symm

/-- Sources that come from each other by any number of changes, made or taken back, are
assembled to the same program, or neither is assembled. -/
theorem assemble_respelled {source other : String}
    (respelled : Relation.EqvGen Changes source other) (geometry : Geometry) (program : Program) :
    Program.assemble geometry source = .ok program ↔
      Program.assemble geometry other = .ok program := by
  have alike : Alike (Text.lines source.toList) (Text.lines other.toList) := by
    induction respelled with
    | rel source other changes => exact changes.alike
    | refl source => exact .refl _
    | symm source other _ ih => exact ih.symm
    | trans source middle other _ _ first second => exact first.trans second
  exact alike.assemble_iff

/-- Other letters, another separator, the label on a line of its own and a comment. -/
theorem assemble_respelled_store :
    Relation.EqvGen Changes "loop: sto 1,2" "; once\nLOOP:\n STO 1 2" ∧
      Program.assemble {} "; once\nLOOP:\n STO 1 2" =
        .ok ⟨63, [0x1000000012#40], .ofList [("LOOP", 0)]⟩ := by
  have noColon : ':' ∉ "LOOP".toList := by decide +kernel
  have letters : Changes "loop: sto 1,2" "LOOP: STO 1,2" :=
    ⟨["loop: sto 1,2".toList], ["LOOP: STO 1,2".toList], .line (.letters (by decide +kernel)) [] [],
      by decide +kernel, by decide +kernel, by decide +kernel⟩
  have apart : Respells "LOOP: STO 1,2".toList "LOOP: STO 1 2".toList :=
    @Respells.separator ("LOOP".toList ++ [':']) [' '] "STO".toList [' '] ['1'] [','] [' '] ['2']
      (.label noColon _) (by decide +kernel) (List.forall_mem_singleton.mpr rfl)
      (by decide +kernel) (by decide +kernel) (by decide +kernel) (by decide +kernel)
  have separator : Changes "LOOP: STO 1,2" "LOOP: STO 1 2" :=
    ⟨["LOOP: STO 1,2".toList], ["LOOP: STO 1 2".toList], .line apart [] [],
      by decide +kernel, by decide +kernel, by decide +kernel⟩
  have label : Changes "LOOP:\n STO 1 2" "LOOP: STO 1 2" :=
    ⟨["LOOP:".toList, " STO 1 2".toList], ["LOOP: STO 1 2".toList],
      @Relaid.label "LOOP".toList " STO 1 2".toList [] noColon (by decide +kernel)
        (by decide +kernel) rfl [] [],
      by decide +kernel, by decide +kernel, by decide +kernel⟩
  have comment : Changes "LOOP:\n STO 1 2" "; once\nLOOP:\n STO 1 2" :=
    ⟨["LOOP:".toList, " STO 1 2".toList], ["; once".toList, "LOOP:".toList, " STO 1 2".toList],
      .vacant (by decide +kernel) [] ["LOOP:".toList, " STO 1 2".toList],
      by decide +kernel, by decide +kernel, by decide +kernel⟩
  have chain : Relation.EqvGen Changes "loop: sto 1,2" "; once\nLOOP:\n STO 1 2" :=
    .trans _ _ _ (.rel _ _ letters) <| .trans _ _ _ (.rel _ _ separator) <|
      .trans _ _ _ (.symm _ _ (.rel _ _ label)) (.rel _ _ comment)
  exact ⟨chain, (assemble_respelled chain {} _).mp (by decide +kernel)⟩

/-- A label does not move to an instruction that has a label already: of two labels on a
line the second is taken for a mnemonic. -/
theorem label_before_label_rejected :
    joined ["A:".toList, " B: HLT".toList] = "A:\n B: HLT".toList ∧
      "A:".toList ++ " B: HLT".toList = "A: B: HLT".toList ∧
      Program.assemble {} "A:\n B: HLT" =
        .ok ⟨63, [0xFF00000000#40], .ofList [("A", 0), ("B", 0)]⟩ ∧
      Program.assemble {} "A: B: HLT" = .error (.unknownMnemonic 1 "B:") := by
  decide +kernel

end Grammar

end BitSerial
