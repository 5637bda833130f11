import BitSerial.Text.Blank
import BitSerial.Text.Lines
import Mathlib.Data.List.TakeWhile

/-!
# Text as it is laid out

Blanks around a text come off, words set apart by blanks are found again, and so are
the lines of a text that ends each of them.
-/

namespace BitSerial.Text

/-! ## Blanks at the ends -/

/-- Text that does not begin with a blank. -/
def Opens (text : List Char) : Prop :=
  ∀ char ∈ text.head?, isBlank char = false

/-- Text that has no blank at either end. -/
structure Trimmed (text : List Char) : Prop where
  opens : Opens text
  closes : Opens text.reverse

theorem Opens.append {text : List Char} (opens : Opens text) (some : text ≠ [])
    (behind : List Char) : Opens (text ++ behind) := by
  cases text with
  | nil => exact absurd rfl some
  | cons char rest => exact opens

theorem Opens.front {text before : List Char} (opens : Opens text) (front : before <+: text) :
    Opens before := by
  obtain ⟨behind, rfl⟩ := front
  intro char first
  apply opens
  rw [List.head?_append, Option.mem_def.mp first]
  rfl

theorem opens_trimLeft (text : List Char) : Opens (trimLeft text) := by
  intro char first
  have stopped := List.head?_dropWhile_not isBlank text
  rw [trimLeft, Option.mem_def] at first
  rwa [first] at stopped

theorem Opens.trimLeft {text : List Char} (opens : Opens text) : trimLeft text = text := by
  cases text with
  | nil => rfl
  | cons char rest =>
      rw [Text.trimLeft, List.dropWhile_cons_of_neg]
      rw [opens char rfl]
      exact Bool.false_ne_true

/-- What is left after trimming has no blanks at its ends. -/
theorem trimmed_trim (text : List Char) : Trimmed (trim text) where
  opens := by
    apply (opens_trimLeft text).front
    rw [trim, trimRight, ← List.reverse_suffix, List.reverse_reverse]
    exact List.dropWhile_suffix _
  closes := by
    rw [trim, trimRight, List.reverse_reverse]
    exact opens_trimLeft _

theorem mem_of_mem_trim {text : List Char} {char : Char} (member : char ∈ trim text) :
    char ∈ text := by
  rw [trim, trimRight, List.mem_reverse] at member
  have inFront := List.mem_reverse.mp ((List.dropWhile_suffix _).subset member)
  exact (List.dropWhile_suffix _).subset inFront

/-- Solid text has no blanks at its ends. -/
theorem trimmed_of_solid {text : List Char} (solid : ∀ char ∈ text, isBlank char = false) :
    Trimmed text where
  opens _ first := solid _ (List.mem_of_mem_head? first)
  closes _ first := solid _ (List.mem_reverse.mp (List.mem_of_mem_head? first))

/-- Only the ends matter. -/
theorem Trimmed.append {left right : List Char} (leftTrimmed : Trimmed left)
    (rightTrimmed : Trimmed right) (leftSome : left ≠ []) (rightSome : right ≠ [])
    (middle : List Char) : Trimmed (left ++ middle ++ right) where
  opens := by
    rw [List.append_assoc]
    exact leftTrimmed.opens.append leftSome _
  closes := by
    rw [List.reverse_append]
    exact rightTrimmed.closes.append (mt List.reverse_eq_nil_iff.mp rightSome) _

/-- Blanks around a text come off. -/
theorem Trimmed.trim_between {text before behind : List Char} (trimmed : Trimmed text)
    (beforeBlank : ∀ char ∈ before, isBlank char = true)
    (behindBlank : ∀ char ∈ behind, isBlank char = true) :
    trim (before ++ (text ++ behind)) = text := by
  have front : trimLeft (before ++ (text ++ behind)) = trimLeft (text ++ behind) :=
    List.dropWhile_append_of_pos beforeBlank
  have back (kept : List Char) : trimRight (kept ++ behind) = trimRight kept := by
    rw [trimRight, List.reverse_append, trimLeft, List.dropWhile_append_of_pos]
    · rfl
    · intro char member
      exact behindBlank char (List.mem_reverse.mp member)
  cases text with
  | nil =>
      rw [trim, front, List.nil_append, trimLeft, List.dropWhile_eq_nil_iff.mpr behindBlank]
      rfl
  | cons char rest =>
      have opens : Opens (char :: rest ++ behind) := trimmed.opens
      rw [trim, front, opens.trimLeft, back, trimRight, trimmed.closes.trimLeft,
        List.reverse_reverse]

theorem Trimmed.trim {text : List Char} (trimmed : Trimmed text) : trim text = text := by
  have nothing : ∀ char ∈ [], isBlank char = true := fun _ member => nomatch member
  have between := trimmed.trim_between nothing nothing
  rwa [List.nil_append, List.append_nil] at between

/-- Trimming takes nothing off but blanks. -/
theorem exists_trim (text : List Char) :
    ∃ before behind, (∀ char ∈ before, isBlank char = true) ∧
      (∀ char ∈ behind, isBlank char = true) ∧ text = before ++ (Text.trim text ++ behind) := by
  have blank (text : List Char) : ∀ char ∈ text.takeWhile isBlank, isBlank char = true :=
    fun _ member => List.mem_takeWhile_imp member
  have front := List.takeWhile_append_dropWhile (p := isBlank) (l := text)
  have back := List.takeWhile_append_dropWhile (p := isBlank) (l := (trimLeft text).reverse)
  refine ⟨text.takeWhile isBlank, ((trimLeft text).reverse.takeWhile isBlank).reverse,
    blank text, fun char member => blank _ char (List.mem_reverse.mp member), ?_⟩
  rw [Text.trim, trimRight, trimLeft, ← List.reverse_append, back, List.reverse_reverse]
  exact front.symm

/-- More blanks at the ends come off too. -/
theorem trim_around {before behind : List Char}
    (beforeBlank : ∀ char ∈ before, isBlank char = true)
    (behindBlank : ∀ char ∈ behind, isBlank char = true) (text : List Char) :
    Text.trim (before ++ (text ++ behind)) = Text.trim text := by
  obtain ⟨front, back, frontBlank, backBlank, split⟩ := exists_trim text
  have outer : before ++ (text ++ behind) =
      (before ++ front) ++ (Text.trim text ++ (back ++ behind)) := by
    rw [List.append_assoc, ← List.append_assoc _ back, ← List.append_assoc front, ← split]
  rw [outer]
  apply (trimmed_trim text).trim_between
  · exact List.forall_mem_append.mpr ⟨beforeBlank, frontBlank⟩
  · exact List.forall_mem_append.mpr ⟨backBlank, behindBlank⟩

/-! ## Runs -/

/-- Text that a separator does not break, and that is there to be seen. -/
structure IsRun (separates : Char → Bool) (run : List Char) : Prop where
  some : run ≠ []
  solid : ∀ char ∈ run, separates char = false

instance (separates : Char → Bool) (run : List Char) : Decidable (IsRun separates run) :=
  haveI := List.decidableBAll (fun char => separates char = false) run
  decidable_of_iff (run ≠ [] ∧ ∀ char ∈ run, separates char = false)
    ⟨fun both => ⟨both.1, both.2⟩, fun isRun => ⟨isRun.some, isRun.solid⟩⟩

section

variable {separates : Char → Bool}

theorem runsFrom_cons_of_not {char : Char} (inside : separates char = false)
    (begun rest : List Char) :
    runsFrom separates begun (char :: rest) = runsFrom separates (char :: begun) rest := by
  cases begun <;> rw [runsFrom, inside] <;> simp

theorem runsFrom_cons_of_separates {separator : Char} (separating : separates separator = true)
    {begun : List Char} (some : begun ≠ []) (rest : List Char) :
    runsFrom separates begun (separator :: rest) = begun.reverse :: runs separates rest := by
  cases begun with
  | nil => exact absurd rfl some
  | cons char begun =>
      rw [runsFrom, if_pos separating]
      · rfl
      · exact List.cons_ne_nil char begun

theorem runsFrom_nil_of_ne_nil {begun : List Char} (some : begun ≠ []) :
    runsFrom separates begun [] = [begun.reverse] := by
  rw [runsFrom]
  exact some

theorem runsFrom_append {run : List Char} (solid : ∀ char ∈ run, separates char = false)
    (begun rest : List Char) :
    runsFrom separates begun (run ++ rest) = runsFrom separates (run.reverse ++ begun) rest := by
  induction run generalizing begun with
  | nil => rfl
  | cons char run ih =>
      have inside : separates char = false := solid char List.mem_cons_self
      have others := ih fun other member => solid other (List.mem_cons_of_mem _ member)
      rw [List.cons_append, runsFrom_cons_of_not inside, others, List.reverse_cons,
        List.append_assoc]
      rfl

/-- A run ends at a separator. -/
theorem IsRun.runs_append_cons {run : List Char} (isRun : IsRun separates run) {separator : Char}
    (separating : separates separator = true) (rest : List Char) :
    runs separates (run ++ separator :: rest) = run :: runs separates rest := by
  have some : run.reverse ≠ [] := mt List.reverse_eq_nil_iff.mp isRun.some
  rw [runs, runsFrom_append isRun.solid, List.append_nil,
    runsFrom_cons_of_separates separating some, List.reverse_reverse]

/-- A run ends where the text does. -/
theorem IsRun.runs_eq {run : List Char} (isRun : IsRun separates run) :
    runs separates run = [run] := by
  have some : run.reverse ≠ [] := mt List.reverse_eq_nil_iff.mp isRun.some
  have read := runsFrom_append isRun.solid [] []
  rw [List.append_nil, List.append_nil] at read
  rw [runs, read, runsFrom_nil_of_ne_nil some, List.reverse_reverse]

/-- Separators between runs, of which there is at least one. -/
structure IsBreak (separates : Char → Bool) (gap : List Char) : Prop where
  some : gap ≠ []
  separating : ∀ char ∈ gap, separates char = true

instance (separates : Char → Bool) (gap : List Char) : Decidable (IsBreak separates gap) :=
  haveI := List.decidableBAll (fun char => separates char = true) gap
  decidable_of_iff (gap ≠ [] ∧ ∀ char ∈ gap, separates char = true)
    ⟨fun both => ⟨both.1, both.2⟩, fun isBreak => ⟨isBreak.some, isBreak.separating⟩⟩

theorem IsBreak.not_mem {gap : List Char} (isBreak : IsBreak separates gap) {char : Char}
    (solid : separates char = false) : char ∉ gap := by
  intro member
  rw [isBreak.separating char member] at solid
  cases solid

theorem runs_cons_of_separates {separator : Char} (separating : separates separator = true)
    (rest : List Char) : runs separates (separator :: rest) = runs separates rest := by
  rw [runs, runsFrom, if_pos separating]
  rfl

/-- No run begins before the first character that is inside one. -/
theorem runs_append_of_separates {gap : List Char}
    (separating : ∀ char ∈ gap, separates char = true) (rest : List Char) :
    runs separates (gap ++ rest) = runs separates rest := by
  induction gap with
  | nil => rfl
  | cons separator gap ih =>
      obtain ⟨first, others⟩ := List.forall_mem_cons.mp separating
      rw [List.cons_append, runs_cons_of_separates first, ih others]

/-- A separator ends the run that has begun, if one has. -/
theorem runsFrom_cons {separator : Char} (separating : separates separator = true)
    (begun rest : List Char) :
    runsFrom separates begun (separator :: rest) =
      runsFrom separates begun [] ++ runs separates rest := by
  cases begun with
  | nil => exact runs_cons_of_separates separating rest
  | cons char begun =>
      rw [runsFrom_cons_of_separates separating (List.cons_ne_nil _ _),
        runsFrom_nil_of_ne_nil (List.cons_ne_nil _ _)]
      rfl

theorem runsFrom_append_cons {separator : Char} (separating : separates separator = true)
    (begun text rest : List Char) :
    runsFrom separates begun (text ++ separator :: rest) =
      runsFrom separates begun text ++ runs separates rest := by
  induction text generalizing begun with
  | nil => exact runsFrom_cons separating begun rest
  | cons char text ih =>
      cases inside : separates char with
      | false =>
          rw [List.cons_append, runsFrom_cons_of_not inside, ih, runsFrom_cons_of_not inside]
      | true =>
          rw [List.cons_append, runsFrom_cons inside, runs, ih, runsFrom_cons inside begun text,
            List.append_assoc]
          rfl

/-- It does not matter how texts are set apart. -/
theorem IsBreak.runs_append {gap : List Char} (isBreak : IsBreak separates gap)
    (text rest : List Char) :
    runs separates (text ++ (gap ++ rest)) = runs separates text ++ runs separates rest := by
  cases gap with
  | nil => exact absurd rfl isBreak.some
  | cons separator gap =>
      obtain ⟨first, others⟩ := List.forall_mem_cons.mp isBreak.separating
      rw [runs, List.cons_append, runsFrom_append_cons first, ← runs,
        runs_append_of_separates others]

/-- Separators at the ends are not seen. -/
theorem runs_around {before behind : List Char}
    (beforeSeparates : ∀ char ∈ before, separates char = true)
    (behindSeparates : ∀ char ∈ behind, separates char = true) (text : List Char) :
    runs separates (before ++ (text ++ behind)) = runs separates text := by
  rw [runs_append_of_separates beforeSeparates]
  cases behind with
  | nil => rw [List.append_nil]
  | cons separator behind =>
      have isBreak : IsBreak separates (separator :: behind) :=
        ⟨List.cons_ne_nil _ _, behindSeparates⟩
      rw [← List.append_nil (separator :: behind), isBreak.runs_append]
      exact List.append_nil _

theorem runsFrom_congr {divides : Char → Bool} {text : List Char}
    (same : ∀ char ∈ text, separates char = divides char) (begun : List Char) :
    runsFrom separates begun text = runsFrom divides begun text := by
  have ended (begun : List Char) : runsFrom separates begun [] = runsFrom divides begun [] := by
    cases begun <;> rfl
  induction text generalizing begun with
  | nil => exact ended begun
  | cons char text ih =>
      obtain ⟨first, others⟩ := List.forall_mem_cons.mp same
      cases inside : divides char with
      | false =>
          rw [runsFrom_cons_of_not (first.trans inside), runsFrom_cons_of_not inside, ih others]
      | true =>
          rw [runsFrom_cons (first.trans inside), runsFrom_cons inside, ended, runs, ih others]
          rfl

/-- Runs taken apart further, by other separators, are the runs between separators of
either kind. -/
theorem flatMap_runsFrom (divides : Char → Bool) {begun : List Char}
    (solid : ∀ char ∈ begun, separates char = false) (text : List Char) :
    (runsFrom separates begun text).flatMap (runs divides) =
      runs (fun char => separates char || divides char) (begun.reverse ++ text) := by
  have ended {begun : List Char} (solid : ∀ char ∈ begun, separates char = false) :
      (runsFrom separates begun []).flatMap (runs divides) =
        runs (fun char => separates char || divides char) begun.reverse := by
    cases begun with
    | nil => rfl
    | cons char begun =>
        rw [runsFrom_nil_of_ne_nil (List.cons_ne_nil _ _), List.flatMap_singleton]
        refine runsFrom_congr (fun char member => ?_) []
        rw [solid char (List.mem_reverse.mp member), Bool.false_or]
  induction text generalizing begun with
  | nil => rw [List.append_nil, ended solid]
  | cons char text ih =>
      cases inside : separates char with
      | false =>
          have extended := ih (List.forall_mem_cons.mpr ⟨inside, solid⟩)
          rw [List.reverse_cons, List.append_assoc] at extended
          rw [runsFrom_cons_of_not inside]
          exact extended
      | true =>
          have either : (separates char || divides char) = true := by rw [inside, Bool.true_or]
          have later : (runs separates text).flatMap (runs divides) =
              runs (fun char => separates char || divides char) text :=
            ih (List.forall_mem_nil _)
          rw [runsFrom_cons inside, List.flatMap_append, ended solid, later]
          exact (runsFrom_append_cons either [] begun.reverse text).symm

theorem flatMap_runs (divides : Char → Bool) (text : List Char) :
    (runs separates text).flatMap (runs divides) =
      runs (fun char => separates char || divides char) text :=
  flatMap_runsFrom divides (List.forall_mem_nil _) text

end

/-- Words with a space between any two. -/
def unwords (words : List (List Char)) : List Char :=
  [' '].intercalate words

theorem unwords_cons_cons (first second : List Char) (rest : List (List Char)) :
    unwords (first :: second :: rest) = first ++ [' '] ++ unwords (second :: rest) :=
  List.intercalate_cons_cons

/-- Words are found again. -/
theorem words_unwords {texts : List (List Char)} (isWord : ∀ text ∈ texts, IsRun isBlank text) :
    words (unwords texts) = texts := by
  induction texts with
  | nil => rfl
  | cons first rest ih =>
      have isFirst : IsRun isBlank first := isWord first List.mem_cons_self
      have others := ih fun text member => isWord text (List.mem_cons_of_mem _ member)
      cases rest with
      | nil =>
          rw [unwords, List.intercalate_singleton]
          exact isFirst.runs_eq
      | cons second rest =>
          rw [unwords_cons_cons, List.append_assoc, words, List.singleton_append,
            isFirst.runs_append_cons rfl, ← words, others]

theorem mem_unwords {texts : List (List Char)} {char : Char} (member : char ∈ unwords texts) :
    char = ' ' ∨ ∃ text ∈ texts, char ∈ text := by
  induction texts with
  | nil => cases member
  | cons first rest ih =>
      cases rest with
      | nil =>
          rw [unwords, List.intercalate_singleton] at member
          exact .inr ⟨first, List.mem_cons_self, member⟩
      | cons second rest =>
          rw [unwords_cons_cons, List.append_assoc] at member
          rcases List.mem_append.mp member with inFirst | behind
          · exact .inr ⟨first, List.mem_cons_self, inFirst⟩
          · rcases List.mem_cons.mp behind with space | later
            · exact .inl space
            · rcases ih later with space | ⟨text, listed, inText⟩
              · exact .inl space
              · exact .inr ⟨text, List.mem_cons_of_mem _ listed, inText⟩

theorem unwords_ne_nil {first : List Char} (some : first ≠ []) (rest : List (List Char)) :
    unwords (first :: rest) ≠ [] := by
  cases rest with
  | nil => rwa [unwords, List.intercalate_singleton]
  | cons second rest =>
      rw [unwords_cons_cons, List.append_assoc]
      exact List.append_ne_nil_of_left_ne_nil some _

theorem trimmed_unwords {texts : List (List Char)} (isWord : ∀ text ∈ texts, IsRun isBlank text) :
    Trimmed (unwords texts) := by
  induction texts with
  | nil => exact trimmed_of_solid (by simp [unwords])
  | cons first rest ih =>
      have isFirst : IsRun isBlank first := isWord first List.mem_cons_self
      have isRest (text) (member : text ∈ rest) := isWord text (List.mem_cons_of_mem _ member)
      cases rest with
      | nil =>
          rw [unwords, List.intercalate_singleton]
          exact trimmed_of_solid isFirst.solid
      | cons second rest =>
          have isSecond : IsRun isBlank second := isRest second List.mem_cons_self
          rw [unwords_cons_cons]
          exact (trimmed_of_solid isFirst.solid).append (ih isRest) isFirst.some
            (unwords_ne_nil isSecond.some rest) _

/-! ## Lines -/

/-- Text that can be read as one line. -/
structure IsLine (line : List Char) : Prop where
  unbroken : '\n' ∉ line
  unreturned : line.getLast? ≠ some '\r'

theorem linesFrom_append {line : List Char} (unbroken : '\n' ∉ line) (begun rest : List Char) :
    linesFrom begun (line ++ rest) = linesFrom (line.reverse ++ begun) rest := by
  induction line generalizing begun with
  | nil => rfl
  | cons char line ih =>
      obtain ⟨apart, others⟩ := not_or.mp (mt List.mem_cons.mpr unbroken)
      rw [List.cons_append, linesFrom, if_neg (Ne.symm apart), ih others, List.reverse_cons,
        List.append_assoc]
      rfl

theorem endLine_reverse {line : List Char} (unreturned : line.getLast? ≠ some '\r') :
    endLine line.reverse = line := by
  rw [endLine.eq_2]
  · exact List.reverse_reverse line
  · intro rest ends
    rw [List.getLast?_eq_head?_reverse, ends] at unreturned
    exact unreturned rfl

theorem IsLine.lines_append {line : List Char} (isLine : IsLine line) (rest : List Char) :
    lines (line ++ '\n' :: rest) = line :: lines rest := by
  rw [lines, linesFrom_append isLine.unbroken, List.append_nil, linesFrom, if_pos rfl,
    endLine_reverse isLine.unreturned]
  rfl

/-- Lines are found again. -/
theorem lines_flatMap {texts : List (List Char)} (isLine : ∀ text ∈ texts, IsLine text) :
    lines (texts.flatMap fun text => text ++ ['\n']) = texts := by
  induction texts with
  | nil => rfl
  | cons first rest ih =>
      have isFirst : IsLine first := isLine first List.mem_cons_self
      have others := ih fun text member => isLine text (List.mem_cons_of_mem _ member)
      rw [List.flatMap_cons, List.append_assoc, List.singleton_append, isFirst.lines_append, others]

/-- No line has a line feed in it. -/
theorem not_mem_of_mem_linesFrom {begun text line : List Char} (unbroken : '\n' ∉ begun)
    (member : line ∈ linesFrom begun text) : '\n' ∉ line := by
  induction text generalizing begun with
  | nil =>
      cases begun with
      | nil => cases member
      | cons char begun =>
          rw [linesFrom, List.mem_singleton] at member
          · rwa [member, List.mem_reverse]
          · exact List.cons_ne_nil char begun
  | cons char rest ih =>
      rw [linesFrom] at member
      split at member
      · rcases List.mem_cons.mp member with rfl | later
        · rw [endLine.eq_def]
          split
          · rw [List.mem_reverse]
            exact fun inside => unbroken (List.mem_cons_of_mem _ inside)
          · rwa [List.mem_reverse]
        · exact ih List.not_mem_nil later
      · rename_i apart
        exact ih (List.not_mem_cons_of_ne_of_not_mem (Ne.symm apart) unbroken) member

theorem not_mem_of_mem_lines {text line : List Char} (member : line ∈ lines text) : '\n' ∉ line :=
  not_mem_of_mem_linesFrom List.not_mem_nil member

end BitSerial.Text
