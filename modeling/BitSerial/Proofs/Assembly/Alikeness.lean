import BitSerial.Proofs.Assembly.Acceptance

/-!
# Lines that read alike

A source means its statements, in order, and its labels, each by the number of statements
before it.  Lines that agree in these may be exchanged for each other wherever they stand,
and are assembled to the same program.
-/

namespace BitSerial.Grammar

open SourceLine (parse statements)

variable {lines left right : List (List Char)} {line : List Char} {name : List Char}
  {index capacity : Nat} {program : Program}

/-! ## Labels by what comes before them -/

theorem labels_append : labels (left ++ right) = labels left ++ labels right :=
  List.filterMap_append

theorem labels_singleton : labels [line] = (parse line).label.toList := by
  rw [labels, List.filterMap_cons]
  cases (parse line).label <;> rfl

theorem not_binds_nil : ¬Binds [] name index := by
  rintro ⟨before, line, behind, split, -⟩
  exact absurd split (by simp)

/-- Lines behind others count the statements of those too. -/
theorem binds_append :
    Binds (left ++ right) name index ↔ Binds left name index ∨
      ∃ later, Binds right name later ∧ index = (statements left).length + later := by
  induction right using List.reverseRecOn with
  | nil => simp [not_binds_nil]
  | append_singleton right line ih =>
      rw [← List.append_assoc, binds_concat, ih, statements_append, List.length_append]
      simp only [binds_concat]
      constructor
      · rintro ((isLeft | ⟨later, isRight, same⟩) | ⟨labelled, same⟩)
        · exact .inl isLeft
        · exact .inr ⟨later, .inl isRight, same⟩
        · exact .inr ⟨_, .inr ⟨labelled, rfl⟩, same⟩
      · rintro (isLeft | ⟨later, isRight | ⟨labelled, rfl⟩, same⟩)
        · exact .inl (.inl isLeft)
        · exact .inl (.inr ⟨later, isRight, same⟩)
        · exact .inr ⟨labelled, same⟩

theorem binds_singleton :
    Binds [line] name index ↔ (parse line).label = some name ∧ index = 0 := by
  rw [← List.nil_append [line], binds_concat, or_iff_right not_binds_nil]
  rfl

/-- A statement follows every label if no label counts all statements. -/
theorem closed_iff :
    Closed lines ↔ ∀ name index, Binds lines name index → index < (statements lines).length := by
  constructor
  · rintro closed name _ ⟨before, line, behind, rfl, labelled, rfl⟩
    have follows := closed before line behind rfl (by rw [labelled]; exact Option.some_ne_none _)
    rw [statements_append, List.length_append]
    exact Nat.lt_add_of_pos_right (List.length_pos_iff.mpr follows)
  · rintro below before line behind rfl labelled nothing
    obtain ⟨name, isLabel⟩ := Option.ne_none_iff_exists'.mp labelled
    have less := below name _ ⟨before, line, behind, rfl, isLabel, rfl⟩
    rw [statements_append, nothing, List.append_nil] at less
    exact Nat.lt_irrefl _ less

/-! ## Lines that read alike -/

/-- Lines with the same statements in order, and the same labels before each of them. -/
structure Alike (left right : List (List Char)) : Prop where
  statements : statements left = statements right
  binds : ∀ name index, Binds left name index ↔ Binds right name index
  labels : (labels left).Perm (labels right)

theorem Alike.refl (lines : List (List Char)) : Alike lines lines :=
  ⟨rfl, fun _ _ => Iff.rfl, .rfl⟩

theorem Alike.symm (alike : Alike left right) : Alike right left :=
  ⟨alike.statements.symm, fun name index => (alike.binds name index).symm, alike.labels.symm⟩

theorem Alike.trans {others : List (List Char)} (first : Alike left right)
    (second : Alike right others) : Alike left others :=
  ⟨first.statements.trans second.statements,
    fun name index => (first.binds name index).trans (second.binds name index),
    first.labels.trans second.labels⟩

theorem Alike.append {above below : List (List Char)} (front : Alike left right)
    (behind : Alike above below) : Alike (left ++ above) (right ++ below) where
  statements := by
    rw [statements_append, statements_append, front.statements, behind.statements]
  binds name index := by
    simp only [binds_append, front.binds, front.statements, behind.binds]
  labels := by
    rw [labels_append, labels_append]
    exact front.labels.append behind.labels

/-- Lines may be exchanged between the same lines. -/
theorem Alike.between (alike : Alike left right) (above below : List (List Char)) :
    Alike (above ++ left ++ below) (above ++ right ++ below) :=
  ((Alike.refl above).append alike).append (.refl below)

theorem alike_of_parse {old new : List Char} (same : parse old = parse new) :
    Alike [old] [new] where
  statements := by rw [statements_singleton, statements_singleton, same]
  binds name index := by rw [binds_singleton, binds_singleton, same]
  labels := by rw [labels_singleton, labels_singleton, same]

/-- A line with nothing on it may be left out. -/
theorem alike_vacant (vacant : parse line = ⟨none, none⟩) : Alike [] [line] where
  statements := by rw [statements_singleton, vacant]; rfl
  binds name index := by
    rw [binds_singleton, vacant]
    exact iff_of_false not_binds_nil fun labelled => nomatch labelled.1
  labels := by rw [labels_singleton, vacant]; rfl

/-- A label may stand before the line of its statement, on a line of its own, with any
lines between that hold no statement. -/
theorem alike_label {alone bare both : List Char} {label : Option (List Char)}
    {written : Option (List Char × List (List Char))} {middle : List (List Char)}
    (isAlone : parse alone = ⟨label, none⟩) (isBare : parse bare = ⟨none, written⟩)
    (isBoth : parse both = ⟨label, written⟩) (unstated : statements middle = []) :
    Alike (alone :: middle ++ [bare]) (middle ++ [both]) := by
  have split : alone :: middle ++ [bare] = [alone] ++ (middle ++ [bare]) := rfl
  constructor
  · rw [split]
    simp only [statements_append, statements_singleton, isAlone, isBare, isBoth, unstated]
    rfl
  · intro name index
    rw [split]
    simp only [binds_append, binds_singleton, statements_singleton, isAlone, isBare, isBoth,
      unstated]
    constructor
    · rintro (⟨labelled, rfl⟩ | ⟨later, isMiddle | ⟨_, ⟨nothing, -⟩, -⟩, rfl⟩)
      · exact .inr ⟨0, ⟨labelled, rfl⟩, rfl⟩
      · exact .inl (by simpa using isMiddle)
      · cases nothing
    · rintro (isMiddle | ⟨_, ⟨labelled, rfl⟩, rfl⟩)
      · exact .inr ⟨index, .inl isMiddle, by simp⟩
      · exact .inl ⟨labelled, rfl⟩
  · rw [split]
    simp only [labels_append, labels_singleton, isAlone, isBare, isBoth, Option.toList_none,
      List.append_nil]
    exact List.perm_append_comm

/-! ## Programs -/

theorem Alike.wellFormed (alike : Alike left right) (wellFormed : WellFormed capacity left) :
    WellFormed capacity right where
  labels_nodup := alike.labels.nodup_iff.mp wellFormed.labels_nodup
  known := alike.statements ▸ wellFormed.known
  closed := closed_iff.mpr fun name index bound =>
    alike.statements ▸
      closed_iff.mp wellFormed.closed name index ((alike.binds name index).mpr bound)
  fits := alike.statements ▸ wellFormed.fits

theorem Alike.yields (alike : Alike left right) (yields : Yields capacity left program) :
    Yields capacity right program where
  wellFormed := alike.wellFormed yields.wellFormed
  base := alike.statements ▸ yields.base
  words := by
    have bound : Binds left = Binds right :=
      funext fun name => funext fun index => propext (alike.binds name index)
    rw [← alike.statements, ← bound]
    exact yields.words
  labels entry := (yields.labels entry).trans (alike.binds _ _)

/-- Sources whose lines read alike are assembled to the same program, or neither is
assembled. -/
theorem Alike.assemble_iff {geometry : Geometry} {source other : String}
    (alike : Alike (Text.lines source.toList) (Text.lines other.toList)) :
    Program.assemble geometry source = .ok program ↔
      Program.assemble geometry other = .ok program := by
  by_cases valid : geometry.Valid
  · rw [Program.assemble_eq_ok_iff_yields valid, Program.assemble_eq_ok_iff_yields valid]
    exact ⟨alike.yields, alike.symm.yields⟩
  · rw [Program.assemble_eq_ok_iff, Program.assemble_eq_ok_iff]
    exact iff_of_false (fun both => valid both.1) fun both => valid both.1

end BitSerial.Grammar
