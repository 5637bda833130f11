import BitSerial.Proofs.Assembly.Passes
import BitSerial.Proofs.Text.Marks

/-!
# Names that labels have

A label is the text before a colon, trimmed and in upper case.  So it is not empty, it
is trimmed and in upper case, and it holds none of the marks that end a label, a
statement or a line.
-/

namespace BitSerial

namespace SourceLine

/-- A text that a line can have for its label. -/
structure IsLabel (label : List Char) : Prop where
  some : label ≠ []
  upper : Text.upper label = label
  trimmed : Text.Trimmed label
  noColon : ':' ∉ label
  noSemicolon : ';' ∉ label
  unbroken : '\n' ∉ label

theorem label?_eq_some {text label : List Char} (labelled : label? text = some label) :
    label = Text.upper (Text.trim text) ∧ label ≠ [] := by
  rw [label?] at labelled
  split at labelled
  · cases labelled
  · rename_i written
    cases labelled
    exact ⟨rfl, written⟩

/-- A label is the upper case of something before a colon. -/
theorem exists_label? {line label : List Char} (parsed : (parse line).label = some label) :
    label? ((code line).takeWhile (· ≠ ':')) = some label := by
  have split : (splitLabel (code line)).1 = some label := parsed
  rw [splitLabel] at split
  split at split
  · cases split
  · exact split

theorem isLabel_of_parse {line label : List Char} (unbroken : '\n' ∉ line)
    (parsed : (parse line).label = some label) : IsLabel label := by
  obtain ⟨rfl, written⟩ := label?_eq_some (exists_label? parsed)
  -- A mark of the label stands before the colon and the semicolon of the line.
  have origin {mark : Char} (isMark : Text.isMark mark = true)
      (member : mark ∈ Text.upper (Text.trim ((code line).takeWhile (· ≠ ':')))) :
      mark ≠ ':' ∧ mark ≠ ';' ∧ mark ∈ line := by
    have before := Text.mem_of_mem_trim (Text.mem_of_mem_upper member isMark)
    have inCode := Text.mem_of_mem_trim (List.takeWhile_subset _ before)
    refine ⟨?_, ?_, List.takeWhile_subset _ inCode⟩
    · simpa using List.mem_takeWhile_imp before
    · simpa using List.mem_takeWhile_imp inCode
  constructor
  · exact written
  · exact Text.upper_upper _
  · exact (Text.trimmed_trim _).upper
  · exact fun member => (origin rfl member).1 rfl
  · exact fun member => (origin rfl member).2.1 rfl
  · exact fun member => unbroken (origin rfl member).2.2

end SourceLine

namespace Outline

variable {outline after : Outline}

theorem mem_labels_of_addLabel {number : Nat} {label : String}
    (added : outline.addLabel number label = .ok after) {entry : String × Nat}
    (member : entry ∈ after.labels.entries) : entry ∈ outline.labels.entries ∨ entry.1 = label := by
  rw [addLabel] at added
  split at added
  · cases added
  · cases added
    rcases LabelTable.mem_insertEntry member with rfl | older
    · exact .inr rfl
    · exact .inl older

theorem labels_of_addLine_rest {number : Nat} {written : Option (List Char × List (List Char))}
    (added : outline.addLine number ⟨none, written⟩ = .ok after) :
    after.labels = outline.labels := by
  rcases addLine_rest added with ⟨-, rfl⟩ | ⟨statement, -, rfl⟩
  · rfl
  · rfl

/-- A line binds no name but its own label. -/
theorem mem_labels_of_addLine {number : Nat} {line : SourceLine}
    (added : outline.addLine number line = .ok after) {entry : String × Nat}
    (member : entry ∈ after.labels.entries) :
    entry ∈ outline.labels.entries ∨ line.label = some entry.1.toList := by
  cases named : line.label with
  | none =>
      rw [addLine, named] at added
      rw [labels_of_addLine_rest added] at member
      exact .inl member
  | some label =>
      obtain ⟨labelled, bound, rest⟩ := addLine_of_label named added
      rw [labels_of_addLine_rest rest] at member
      rcases mem_labels_of_addLabel bound member with older | same
      · exact .inl older
      · rw [same, String.toList_ofList]
        exact .inr rfl

/-- So all names are labels of lines. -/
theorem mem_labels_of_addLines {number : Nat} {lines : List (List Char)}
    (added : outline.addLines number lines = .ok after) {entry : String × Nat}
    (member : entry ∈ after.labels.entries) :
    entry ∈ outline.labels.entries ∨
      ∃ line ∈ lines, (SourceLine.parse line).label = some entry.1.toList := by
  induction lines generalizing number outline with
  | nil =>
      cases added
      exact .inl member
  | cons line rest ih =>
      rw [addLines] at added
      cases next : outline.addLine number (SourceLine.parse line) with
      | error error =>
          rw [next] at added
          cases added
      | ok middle =>
          rw [next] at added
          rcases ih added with older | ⟨later, inRest, labelled⟩
          · rcases mem_labels_of_addLine next older with oldest | labelled
            · exact .inl oldest
            · exact .inr ⟨line, List.mem_cons_self, labelled⟩
          · exact .inr ⟨later, List.mem_cons_of_mem _ inRest, labelled⟩

/-- Every name in the outline of a source is a label. -/
theorem isLabel_of_ofSource {source : List Char} (outlined : ofSource source = .ok outline)
    {entry : String × Nat} (member : entry ∈ outline.labels.entries) :
    SourceLine.IsLabel entry.1.toList := by
  have added := (ofSource_eq_ok_iff.mp outlined).1
  rcases mem_labels_of_addLines added member with nothing | ⟨line, inSource, labelled⟩
  · cases nothing
  · exact SourceLine.isLabel_of_parse (Text.not_mem_of_mem_lines inSource) labelled

end Outline

end BitSerial
