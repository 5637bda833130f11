import BitSerial.Image
import BitSerial.Proofs.Assembly.LabelTables
import BitSerial.Proofs.Json.Reading
import BitSerial.Proofs.Json.Records
import BitSerial.Proofs.Machine.Loading

/-!
# Stored programs

What is read from a stored program are its own numbers, none cut to size.  So an image
whose counts fit in sixty-four bits comes back from its text as it was, if its version
is known and its program ends where its memory ends, and is refused for just that
reason otherwise.  Whatever text an image was read from, its program can be loaded.
-/

namespace BitSerial

/-! ## Labels -/

namespace LabelTable

/-- The indices of a table are counts. -/
def Counted (table : LabelTable) : Prop :=
  ∀ entry ∈ table.entries, entry.2 < countLimit

theorem Counted.ofJson?_toJson {table : LabelTable} (counted : table.Counted) :
    ofJson? table.toJson = some table := by
  have decodes (member : String × Json) (entry : String × Nat) :
      (member.2.count?.map fun index => (member.1, index)) = some entry ↔
        member = (entry.1, .nat entry.2) ∧ entry.2 < countLimit := by
    rw [Option.map_eq_some_iff]
    constructor
    · rintro ⟨index, read, rfl⟩
      obtain ⟨written, inside⟩ := Json.natBelow?_eq_some_iff.mp read
      exact ⟨Prod.ext rfl written, inside⟩
    · rintro ⟨rfl, inside⟩
      exact ⟨entry.2, Json.natBelow?_eq_some_iff.mpr ⟨rfl, inside⟩, rfl⟩
  have read := (Json.mapM_eq_some_iff decodes).mpr ⟨rfl, counted⟩
  rw [toJson, ofJson?, read]
  exact congrArg some table.ofList_entries

theorem whole_toJson (table : LabelTable) : table.toJson.Whole := by
  apply Json.Whole.object
  intro member listed
  obtain ⟨entry, -, rfl⟩ := List.mem_map.mp listed
  exact .integer entry.2

end LabelTable

/-! ## Programs -/

namespace Program

/-- A word is spelled by its own number and by no other. -/
theorem word?_eq_some_iff {value : Json} {word : Word} :
    word? value = some word ↔ value = .nat word.toNat ∧ word.toNat < wordLimit := by
  rw [word?, Option.map_eq_some_iff]
  constructor
  · rintro ⟨number, read, rfl⟩
    obtain ⟨rfl, inside⟩ := Json.natBelow?_eq_some_iff.mp read
    have same : (BitVec.ofNat 40 number).toNat = number := by
      rw [BitVec.toNat_ofNat]
      exact Nat.mod_eq_of_lt inside
    rw [same]
    exact ⟨rfl, inside⟩
  · rintro ⟨rfl, inside⟩
    exact ⟨word.toNat, Json.natBelow?_eq_some_iff.mpr ⟨rfl, inside⟩, BitVec.ofNat_toNat 40 word⟩

theorem words?_eq_some_iff {value : Json} {words : List Word} :
    words? value = some words ↔
      value = .array (words.map fun word => .nat word.toNat) ∧
        ∀ word ∈ words, word.toNat < wordLimit := by
  cases value with
  | array items =>
      rw [words?, Json.mapM_eq_some_iff fun _ _ => word?_eq_some_iff, Json.array.injEq]
  | _ =>
      constructor
      · rintro ⟨⟩
      · rintro ⟨⟨⟩, -⟩

/-- The numbers of a program are those of a structured value. -/
structure SpelledBy (program : Program) (value : Json) : Prop where
  fields : ∃ labels,
    Json.allFields? ["base_address", "words", "labels"] value =
      some [.nat program.base, .array (program.words.map fun word => .nat word.toNat), labels] ∧
    LabelTable.ofJson? labels = some program.labels
  base_lt : program.base < countLimit
  words_lt : ∀ word ∈ program.words, word.toNat < wordLimit

theorem ofJson?_eq_some_iff {value : Json} {program : Program} :
    ofJson? value = some program ↔ program.SpelledBy value := by
  constructor
  · intro read
    rw [ofJson?] at read
    split at read
    · rename_i base words labels fields
      obtain ⟨baseRead, isBase, read⟩ := Option.bind_eq_some_iff.mp read
      obtain ⟨wordsRead, areWords, read⟩ := Option.bind_eq_some_iff.mp read
      obtain ⟨labelsRead, areLabels, read⟩ := Option.bind_eq_some_iff.mp read
      cases read
      obtain ⟨rfl, baseInside⟩ := Json.natBelow?_eq_some_iff.mp isBase
      obtain ⟨rfl, wordsInside⟩ := words?_eq_some_iff.mp areWords
      exact ⟨⟨labels, fields, areLabels⟩, baseInside, wordsInside⟩
    · cases read
  · rintro ⟨⟨labels, fields, areLabels⟩, baseInside, wordsInside⟩
    have isBase : (Json.nat program.base).count? = some program.base :=
      Json.natBelow?_eq_some_iff.mpr ⟨rfl, baseInside⟩
    have areWords := words?_eq_some_iff.mpr ⟨rfl, wordsInside⟩
    rw [ofJson?, fields]
    dsimp only
    rw [isBase, areWords, areLabels]
    rfl

/-- The counts of a program fit in sixty-four bits. -/
structure Counted (program : Program) : Prop where
  base : program.base < countLimit
  labels : program.labels.Counted

theorem Counted.spelledBy_toJson {program : Program} (counted : program.Counted) :
    program.SpelledBy program.toJson where
  fields := ⟨program.labels.toJson, Json.allFields?_object (by simp), counted.labels.ofJson?_toJson⟩
  base_lt := counted.base
  words_lt word _ := word.isLt

theorem whole_toJson (program : Program) : program.toJson.Whole := by
  apply Json.Whole.object
  simp only [List.forall_mem_cons]
  refine ⟨.integer program.base, ?_, program.labels.whole_toJson, nofun⟩
  apply Json.Whole.array
  intro item listed
  obtain ⟨word, -, rfl⟩ := List.mem_map.mp listed
  exact .integer word.toNat

end Program

/-! ## Images -/

namespace Image

/-- The numbers of an image are those of a structured value. -/
structure SpelledBy (image : Image) (value : Json) : Prop where
  fields : ∃ program,
    Json.allFields? ["format", "main_words", "program"] value =
      some [.nat image.format.toNat, .nat image.mainWords, program] ∧
    image.program.SpelledBy program
  mainWords_lt : image.mainWords < countLimit

theorem ofJson?_eq_some_iff {value : Json} {image : Image} :
    ofJson? value = some image ↔ image.SpelledBy value := by
  constructor
  · intro read
    rw [ofJson?] at read
    split at read
    · rename_i format mainWords program fields
      obtain ⟨formatRead, isFormat, read⟩ := Option.bind_eq_some_iff.mp read
      obtain ⟨mainWordsRead, isMainWords, read⟩ := Option.bind_eq_some_iff.mp read
      obtain ⟨programRead, isProgram, read⟩ := Option.bind_eq_some_iff.mp read
      cases read
      obtain ⟨rfl, formatInside⟩ := Json.natBelow?_eq_some_iff.mp isFormat
      obtain ⟨rfl, mainWordsInside⟩ := Json.natBelow?_eq_some_iff.mp isMainWords
      have same : (BitVec.ofNat 32 formatRead).toNat = formatRead := by
        rw [BitVec.toNat_ofNat]
        exact Nat.mod_eq_of_lt formatInside
      refine ⟨⟨program, ?_, Program.ofJson?_eq_some_iff.mp isProgram⟩, mainWordsInside⟩
      dsimp only
      rw [same]
      exact fields
    · cases read
  · rintro ⟨⟨program, fields, spelled⟩, mainWordsInside⟩
    have isFormat : (Json.nat image.format.toNat).natBelow? operandLimit =
        some image.format.toNat :=
      Json.natBelow?_eq_some_iff.mpr ⟨rfl, image.format.isLt⟩
    have isMainWords : (Json.nat image.mainWords).count? = some image.mainWords :=
      Json.natBelow?_eq_some_iff.mpr ⟨rfl, mainWordsInside⟩
    rw [ofJson?, fields]
    dsimp only
    rw [isFormat, isMainWords, Program.ofJson?_eq_some_iff.mpr spelled]
    show some { image with format := BitVec.ofNat 32 image.format.toNat } = _
    rw [BitVec.ofNat_toNat, BitVec.setWidth_eq]

/-- The counts of an image fit in sixty-four bits. -/
structure Counted (image : Image) : Prop where
  mainWords : image.mainWords < countLimit
  program : image.program.Counted

theorem Counted.spelledBy_toJson {image : Image} (counted : image.Counted) :
    image.SpelledBy image.toJson where
  fields := ⟨image.program.toJson, Json.allFields?_object (by simp),
    counted.program.spelledBy_toJson⟩
  mainWords_lt := counted.mainWords

theorem whole_toJson (image : Image) : image.toJson.Whole := by
  apply Json.Whole.object
  simp only [List.forall_mem_cons]
  exact ⟨.integer image.format.toNat, .integer image.mainWords, image.program.whole_toJson, nofun⟩

/-- Of the text of an image only the check decides. -/
theorem Counted.parse_print {image : Image} (counted : image.Counted) :
    parse image.print = image.check := by
  have read : (Json.read? image.print).bind ofJson? = some image := by
    rw [print, image.whole_toJson.read?_indented]
    exact ofJson?_eq_some_iff.mpr counted.spelledBy_toJson
  rw [parse, read]

/-- The image in a text was spelled there and passes the check. -/
theorem parse_eq_ok_iff {text : String} {image : Image} :
    parse text = .ok image ↔
      (∃ value, Json.read? text = some value ∧ image.SpelledBy value) ∧
        image.check = .ok image := by
  constructor
  · intro parsed
    rw [parse] at parsed
    split at parsed
    · rename_i stored read
      obtain ⟨value, isValue, isImage⟩ := Option.bind_eq_some_iff.mp read
      have same : stored = image := by
        rw [check] at parsed
        split at parsed
        · cases parsed
        · split at parsed
          · cases parsed
          · exact Except.ok.inj parsed
      subst same
      exact ⟨⟨value, isValue, ofJson?_eq_some_iff.mp isImage⟩, parsed⟩
    · cases parsed
  · rintro ⟨⟨value, isValue, spelled⟩, checked⟩
    have read : (Json.read? text).bind ofJson? = some image := by
      rw [isValue]
      exact ofJson?_eq_some_iff.mpr spelled
    rw [parse, read]
    exact checked

/-- The program of an image ends where its memory ends. -/
def AtTail (image : Image) : Prop :=
  image.program.size ≤ image.mainWords ∧ image.program.base = image.mainWords - image.program.size

theorem check_eq_ok_iff {image : Image} :
    image.check = .ok image ↔ image.format = currentFormat ∧ image.AtTail := by
  rw [check, AtTail]
  split
  · simp [*]
  · split
    · simp only [reduceCtorEq, false_iff]
      omega
    · simp only [true_iff]
      exact ⟨Decidable.not_not.mp ‹_›, by omega⟩

theorem check_of_not_atTail {image : Image} (current : image.format = currentFormat)
    (misplaced : ¬image.AtTail) :
    image.check =
      .error (.inconsistent image.program.base image.program.size image.mainWords) := by
  rw [check, if_neg (not_not_intro current), if_pos]
  rw [AtTail] at misplaced
  omega

/-- A program that ends where main memory ends is loaded. -/
theorem AtTail.loads {image : Image} (atTail : image.AtTail) {geometry : Geometry}
    (sized : geometry.mainWords = image.mainWords) (machine : Machine geometry) :
    ∃ loaded, machine.loadProgram image.program = (.ok (), loaded) := by
  obtain ⟨fits, base⟩ := atTail
  rw [← sized] at fits base
  exact Machine.loadProgram_of_le fits base machine

/-- The text of an image is read as that image if its version is known and its program
ends where its memory ends, and is refused with its own numbers otherwise.  From
whatever text an image was read, its words and counts were spelled there in full, and
every machine with as much main memory loads its program. -/
theorem print_parse_load :
    (∀ image : Image, image.Counted →
      (image.format = 1 → image.AtTail → parse image.print = .ok image) ∧
      (image.format ≠ 1 → parse image.print = .error (.unsupportedFormat image.format)) ∧
      (image.format = 1 → ¬image.AtTail →
        parse image.print =
          .error (.inconsistent image.program.base image.program.size image.mainWords))) ∧
    ∀ (text : String) (image : Image), parse text = .ok image →
      (∃ value, Json.read? text = some value ∧ image.SpelledBy value) ∧
      (∀ word ∈ image.program.words, word.toNat < wordLimit) ∧
      ∀ (geometry : Geometry) (machine : Machine geometry),
        geometry.mainWords = image.mainWords →
          ∃ loaded, machine.loadProgram image.program = (.ok (), loaded) := by
  constructor
  · intro image counted
    rw [counted.parse_print]
    refine ⟨?_, ?_, ?_⟩
    · intro current atTail
      exact check_eq_ok_iff.mpr ⟨current, atTail⟩
    · intro other
      exact if_pos other
    · intro current misplaced
      exact check_of_not_atTail current misplaced
  · intro text image parsed
    obtain ⟨⟨value, isValue, spelled⟩, checked⟩ := parse_eq_ok_iff.mp parsed
    have atTail := (check_eq_ok_iff.mp checked).2
    refine ⟨⟨value, isValue, spelled⟩, ?_, ?_⟩
    · obtain ⟨stored, -, programSpelled⟩ := spelled.fields
      exact programSpelled.words_lt
    · intro geometry machine sized
      exact atTail.loads sized machine

/-- An image of one word, with a label of a quote, a backslash, a line break, another
control character and a letter outside the first plane, comes back from its text and
is loaded; with another version or another size it is refused. -/
theorem print_parse_load_quoted :
    ∃ image : Image, image.program.labels.namesAt 0 = ["\"\\\n\x1f😀"] ∧
      parse image.print = .ok image ∧
      parse { image with format := 2 }.print = .error (.unsupportedFormat 2) ∧
      parse { image with mainWords := 0 }.print = .error (.inconsistent 63 1 0) ∧
      ∀ machine : Machine {}, ∃ loaded, machine.loadProgram image.program = (.ok (), loaded) := by
  let program : Program :=
    { base := 63, words := [0xFFFFFFFFFF], labels := .ofList [("\"\\\n\x1f😀", 0)] }
  have counted : program.Counted :=
    ⟨by decide, fun entry member => by rw [List.mem_singleton.mp member]; decide⟩
  have read := (print_parse_load.1 ⟨1, 64, program⟩ ⟨by decide, counted⟩).1 rfl ⟨by decide, rfl⟩
  refine ⟨⟨1, 64, program⟩, rfl, read, ?_, ?_, ?_⟩
  · exact (print_parse_load.1 ⟨2, 64, program⟩ ⟨by decide, counted⟩).2.1 (by decide)
  · exact (print_parse_load.1 ⟨1, 0, program⟩ ⟨by decide, counted⟩).2.2 rfl
      fun atTail => absurd atTail.1 (by decide)
  · intro machine
    exact (print_parse_load.2 _ _ read).2.2 {} machine rfl

end Image

end BitSerial
