import BitSerial.Proofs.Assembly.ListingGrammar
import BitSerial.Proofs.Image.Stored

/-!
# Labels of images

An image is taken for its version, its size and its base, whatever its labels are.  A label can
be used if it is one that a line can have and its index is that of a word; with any other name
or index it is taken as well, and then it has no address, or none in main memory, or is not read
from the listing.
-/

namespace BitSerial

namespace Program

variable {geometry : Geometry} {program again : Program} {name : String} {index : Nat}

/-! ## Labels that can be used -/

/-- Labels that lines can have, each of a word. -/
structure Legible (program : Program) : Prop where
  isLabel : ∀ entry ∈ program.labels.entries, SourceLine.IsLabel entry.1.toList
  inside : ∀ entry ∈ program.labels.entries, entry.2 < program.size

/-- What can be done with a label: it has a word, and the address of that word in main memory,
and it is bound to the word again when the listing is assembled. -/
structure Usable (geometry : Geometry) (program : Program) (name : String) (index : Nat) :
    Prop where
  inside : index < program.size
  addressed : program.addressOf? name = some (program.base + index)
  stored : program.base + index < geometry.mainWords
  listed : ∃ again, assemble geometry program.listing = .ok again ∧
    again.labels.find? name = some index

/-- A label has the address of an index if its upper case is bound to the index. -/
theorem addressOf?_eq_iff :
    program.addressOf? name = some (program.base + index) ↔
      (String.ofList (Text.upper name.toList), index) ∈ program.labels.entries := by
  rw [addressOf?, ← LabelTable.find?_eq_some_iff, Option.map_eq_some_iff]
  simp

/-- Addresses that are counts are the same as counts. -/
theorem countOf?_eq_iff {address : Nat} (fits : address < countLimit) :
    program.countOf? name = some (some address) ↔ program.addressOf? name = some address := by
  rw [countOf?]
  cases program.addressOf? name with
  | none => simp
  | some other =>
      rw [Option.map_eq_some_iff, Option.some_inj]
      constructor
      · rintro ⟨_, counted, ⟨⟩⟩
        rw [Count.fit?, Option.ite_none_right_eq_some] at counted
        exact Option.some.inj counted.2
      · rintro rfl
        exact ⟨_, Count.fit?_of_lt fits, rfl⟩

/-- The labels of an assembled source are ones that lines can have. -/
theorem isLabel_of_assemble {source : String} (assembled : assemble geometry source = .ok program)
    (bound : (name, index) ∈ program.labels.entries) : SourceLine.IsLabel name.toList := by
  obtain ⟨-, outline, outlined, placed⟩ := assemble_eq_ok_iff.mp assembled
  rw [placed.labels] at bound
  exact Outline.isLabel_of_ofSource outlined bound

/-- So only such labels can be used. -/
theorem Usable.isLabel (usable : Usable geometry program name index) :
    SourceLine.IsLabel name.toList := by
  obtain ⟨again, assembled, found⟩ := usable.listed
  exact isLabel_of_assemble assembled (LabelTable.mem_of_find found)

/-- And if the labels are such, and the listing is a source, all of them can. -/
theorem Legible.usable (legible : program.Legible)
    (whole : program.base + program.size = geometry.mainWords)
    (assembled : assemble geometry program.listing = .ok again)
    (bound : (name, index) ∈ program.labels.entries) : Usable geometry program name index where
  inside := legible.inside _ bound
  addressed := by
    rw [addressOf?_eq_iff, (legible.isLabel _ bound).upper, String.ofList_toList]
    exact bound
  stored := by
    have inside := legible.inside _ bound
    omega
  listed := by
    refine ⟨again, assembled, LabelTable.find?_eq_some_iff.mpr ?_⟩
    rw [mem_labels_of_assemble_listing legible.isLabel assembled]
    exact ⟨bound, legible.inside _ bound⟩

end Program

namespace Image

/-- What an image that was taken says of its labels.  Its program ends where its memory ends, so
a label lies in main memory if its index is that of a word, and has an address if its upper case
is a label for the same index.  The listing has nothing but counts in it if there is room for an
operand behind main memory.  From it, labels that lines can have are read again if they have a
word.  If the words themselves are made again of their text, then all labels can be
used if and only if lines can have them and they all have words; only labels that look like
numbers must not have addresses too large for an operand. -/
theorem label_table_exact {text : String} {image : Image} (parsed : parse text = .ok image) :
    image.program.base + image.program.size = image.mainWords ∧
    (∀ name index, (name, index) ∈ image.program.labels.entries →
      (image.program.base + index < image.mainWords ↔ index < image.program.size) ∧
      (image.program.addressOf? name = some (image.program.base + index) ↔
        (String.ofList (Text.upper name.toList), index) ∈ image.program.labels.entries) ∧
      (image.program.base + index < countLimit →
        (image.program.countOf? name = some (some (image.program.base + index)) ↔
          image.program.addressOf? name = some (image.program.base + index)))) ∧
    (image.mainWords + operandLimit ≤ countLimit →
      image.program.listing? = some image.program.listing) ∧
    ∀ geometry : Geometry, geometry.mainWords = image.mainWords →
      ((∀ entry ∈ image.program.labels.entries, SourceLine.IsLabel entry.1.toList) →
        ∀ again, Program.assemble geometry image.program.listing = .ok again →
          ∀ entry, entry ∈ again.labels.entries ↔
            entry ∈ image.program.labels.entries ∧ entry.2 < image.program.size) ∧
      (image.program.WordsReassemble geometry →
        image.mainWords ≤ operandLimit ∨ image.program.labels.Nonnumeric →
        ((∀ name index, (name, index) ∈ image.program.labels.entries →
            Program.Usable geometry image.program name index) ↔
          image.program.Legible)) := by
  obtain ⟨-, fits, base⟩ := check_eq_ok_iff.mp (parse_eq_ok_iff.mp parsed).2
  have whole : image.program.base + image.program.size = image.mainWords := by omega
  refine ⟨whole, ?_, ?_, ?_⟩
  · intro name index _
    exact ⟨by omega, Program.addressOf?_eq_iff, Program.countOf?_eq_iff⟩
  · intro room
    exact Program.listing?_eq_some (by omega) (by omega)
  · intro geometry sized
    rw [← sized] at whole ⊢
    refine ⟨?_, ?_⟩
    · intro isLabel again assembled
      exact Program.mem_labels_of_assemble_listing isLabel assembled
    · intro reassemble apart
      constructor
      · intro usable
        exact ⟨fun entry bound => (usable _ _ bound).isLabel,
          fun entry bound => (usable _ _ bound).inside⟩
      · intro legible name index bound
        obtain ⟨again, assembled⟩ :=
          Program.exists_assemble_listing legible.isLabel whole reassemble apart
        exact legible.usable whole assembled bound

/-- The labels of a jump to the halt behind it can be used. -/
theorem label_table_exact_jump :
    ∃ image : Image, parse image.print = .ok image ∧ image.mainWords = 64 ∧
      Program.Usable {} image.program "START" 0 ∧ Program.Usable {} image.program "END" 1 := by
  let program : Program :=
    ⟨62, [0x2000000001#40, 0xFF00000000#40], .ofList [("END", 1), ("START", 0)]⟩
  have counts : ∀ entry ∈ program.labels.entries, entry.2 < countLimit := by decide +kernel
  have counted : (ofProgram program 64).Counted := ⟨by decide, by decide, counts⟩
  have read : parse (ofProgram program 64).print = .ok (ofProgram program 64) :=
    counted.parse_print.trans rfl
  have canonical : ∀ word ∈ program.words, word.Canonical := by
    have checked : (program.words.all fun word => decide word.Canonical) = true := by
      decide +kernel
    exact fun word member => of_decide_eq_true (List.all_eq_true.mp checked word member)
  have reassemble : program.WordsReassemble {} :=
    Program.wordsReassemble_of_canonical Geometry.valid_standard rfl canonical
  have isEnd : SourceLine.IsLabel "END".toList := by
    have unbroken : '\n' ∉ "END:".toList := by decide
    exact SourceLine.isLabel_of_parse unbroken (by decide +kernel)
  have isStart : SourceLine.IsLabel "START".toList := by
    have unbroken : '\n' ∉ "START:".toList := by decide
    exact SourceLine.isLabel_of_parse unbroken (by decide +kernel)
  have entries : program.labels.entries = [("END", 1), ("START", 0)] := by decide +kernel
  have legible : program.Legible := by
    constructor
    · rw [entries]
      exact List.forall_mem_cons.mpr ⟨isEnd, List.forall_mem_singleton.mpr isStart⟩
    · decide +kernel
  obtain ⟨-, -, -, each⟩ := label_table_exact read
  have usable := ((each {} rfl).2 reassemble (.inl (by decide))).mpr legible
  exact ⟨_, read, rfl, usable "START" 0 (by decide +kernel), usable "END" 1 (by decide +kernel)⟩

/-- An image of one word is taken with a label for a word behind it, whose address is none of main
memory, and with a label in lower case, which has no address and is listed as another one. -/
theorem taken_with_unusable_labels :
    ∃ image : Image, parse image.print = .ok image ∧ image.mainWords = 64 ∧
      image.program.size = 1 ∧ image.program.labels.entries = [("END", 1), ("start", 0)] ∧
      image.program.addressOf? "END" = some 64 ∧
      image.program.addressOf? "start" = none ∧
      ∃ again, Program.assemble {} image.program.listing = .ok again ∧
        again.words = image.program.words ∧ again.labels.entries = [("START", 0)] := by
  let program : Program := ⟨63, [0xFF00000000#40], .ofList [("END", 1), ("start", 0)]⟩
  have counts : ∀ entry ∈ program.labels.entries, entry.2 < countLimit := by decide +kernel
  have counted : (ofProgram program 64).Counted := ⟨by decide, by decide, counts⟩
  have read : parse (ofProgram program 64).print = .ok (ofProgram program 64) :=
    counted.parse_print.trans rfl
  have listed : Program.assemble {} program.listing =
      .ok ⟨63, [0xFF00000000#40], .ofList [("START", 0)]⟩ := by
    decide +kernel
  exact ⟨_, read, rfl, rfl, by decide +kernel, by decide +kernel, by decide +kernel, _, listed,
    rfl, by decide +kernel⟩

end Image

end BitSerial
