import BitSerial.Text.UpperCase

/-!
# Upper case once and for all

Whatever the mapping makes of a character, it leaves alone.  So text that is
already in upper case can be brought to upper case again, which is what happens to
a label that is taken from a statement and looked up by name.  Runs of letters are
compared by their ends and steps, not letter by letter.
-/

namespace BitSerial.Text

/-- A character that is its own upper case. -/
def Fixed (char : Char) : Prop :=
  upperChar char = [char]

instance (char : Char) : Decidable (Fixed char) :=
  inferInstanceAs (Decidable (upperChar char = [char]))

namespace CaseRun

/-- The small letters of ASCII, which have a mapping of their own. -/
def ascii : CaseRun :=
  ⟨0x61, 0x7A, 1, 0x41⟩

/-- A letter as a run that gives it back. -/
def single (code : Nat) : CaseRun :=
  ⟨code, code, 1, code⟩

/-- No letter that one run gives is in another: they lie apart, or they alternate
with its letters. -/
def avoids (run other : CaseRun) : Bool :=
  Nat.blt (run.target + (run.last - run.first)) other.first || Nat.blt other.last run.target ||
    ((Nat.beq run.step 2 || Nat.beq run.first run.last) && Nat.beq other.step 2 &&
      !Nat.beq (run.target % 2) (other.first % 2))

/-- No letter that a run gives is in a run or has an expansion. -/
def avoidsAll (run : CaseRun) : Bool :=
  (ascii :: caseRuns).all run.avoids && caseExpansions.all fun entry => run.avoids (single entry.1)

theorem all_avoidsAll : caseRuns.all avoidsAll = true := by
  decide +kernel

theorem all_avoidsAll_single :
    (caseExpansions.flatMap (·.2)).eraseDups.all (fun code => (single code).avoidsAll) = true := by
  decide +kernel

/-- A letter that a run gives. -/
structure Gives (run : CaseRun) (code : Nat) : Prop where
  first_le : run.target ≤ code
  le_last : code ≤ run.target + (run.last - run.first)
  step : (code - run.target) % run.step = 0

theorem gives_of_upper {run : CaseRun} {letter code : Nat}
    (mapped : run.upper? letter = some code) : run.Gives code := by
  rw [upper?] at mapped
  split at mapped
  · rename_i inside
    obtain ⟨first, last, step⟩ := inside
    cases mapped
    constructor
    · exact Nat.le_add_left _ _
    · rw [Nat.add_comm]
      exact Nat.add_le_add_left (Nat.sub_le_sub_right last _) _
    · rwa [Nat.add_sub_cancel]
  · cases mapped

theorem gives_single (code : Nat) : (single code).Gives code where
  first_le := Nat.le_refl code
  le_last := Nat.le_add_right code _
  step := Nat.mod_one _

/-- A run that another avoids has none of its letters. -/
theorem upper_eq_none_of_avoids {run other : CaseRun} {code : Nat} (avoids : run.avoids other)
    (gives : run.Gives code) : other.upper? code = none := by
  obtain ⟨first, last, step⟩ := gives
  rw [upper?, if_neg]
  rintro ⟨otherFirst, otherLast, otherStep⟩
  simp only [CaseRun.avoids, Bool.or_eq_true, Bool.and_eq_true, Nat.blt_eq, Nat.beq_eq,
    Bool.not_eq_true'] at avoids
  rcases avoids with (before | behind) | ⟨⟨double | alone, otherDouble⟩, parity⟩
  · exact Nat.not_lt_of_le (Nat.le_trans otherFirst last) before
  · exact Nat.not_lt_of_le (Nat.le_trans first otherLast) behind
  · have apart := Nat.ne_of_beq_eq_false parity
    rw [double] at step
    rw [otherDouble] at otherStep
    omega
  · have apart := Nat.ne_of_beq_eq_false parity
    rw [otherDouble] at otherStep
    omega

/-- A letter that is given is in no run, has no expansion and is no small letter of
ASCII. -/
theorem free_of_gives {run : CaseRun} {code : Nat} (avoids : run.avoidsAll = true)
    (gives : run.Gives code) :
    ascii.upper? code = none ∧ caseRuns.findSome? (·.upper? code) = none ∧
      caseExpansions.lookup code = none := by
  rw [avoidsAll, Bool.and_eq_true, List.all_eq_true, List.all_eq_true] at avoids
  obtain ⟨runs, expansions⟩ := avoids
  refine ⟨?_, ?_, ?_⟩
  · exact upper_eq_none_of_avoids (runs ascii List.mem_cons_self) gives
  · rw [List.findSome?_eq_none_iff]
    intro other member
    exact upper_eq_none_of_avoids (runs other (List.mem_cons_of_mem _ member)) gives
  · rw [List.lookup_eq_none_iff]
    intro entry member
    have outside := upper_eq_none_of_avoids (expansions entry member) gives
    rw [bne_iff_ne]
    rintro rfl
    rw [upper?, if_pos ⟨Nat.le_refl _, Nat.le_refl _, Nat.mod_one _⟩] at outside
    cases outside

end CaseRun

/-! ## Characters -/

/-- What holds of all codes of ASCII holds of its characters. -/
theorem forall_of_forall_code (property : Char → Prop)
    (codes : ∀ code < 128, property (Char.ofNat code)) {char : Char} (narrow : char.toNat < 128) :
    property char := by
  have holds := codes char.toNat narrow
  rwa [Char.ofNat_toNat] at holds

theorem fixed_toUpper {char : Char} (narrow : char.toNat < 128) : Fixed char.toUpper :=
  forall_of_forall_code (fun char => Fixed char.toUpper) (by decide +kernel) narrow

theorem toUpper_of_free : ∀ code < 128, CaseRun.ascii.upper? code = none →
    (Char.ofNat code).toUpper = Char.ofNat code := by
  decide +kernel

/-- A character whose code is free is its own upper case. -/
theorem fixed_of_free {code : Nat}
    (free : CaseRun.ascii.upper? code = none ∧ caseRuns.findSome? (·.upper? code) = none ∧
      caseExpansions.lookup code = none) : Fixed (Char.ofNat code) := by
  obtain ⟨ascii, runs, expansions⟩ := free
  by_cases valid : code.isValidChar
  · have same : (Char.ofNat code).toNat = code := by
      rw [Char.ofNat, dif_pos valid]
      rfl
    rw [Fixed, upperChar, same]
    split
    · rename_i narrow
      rw [toUpper_of_free code narrow ascii]
    · rw [upperWide, same, expansions, runs]
      rfl
  · have zero : Char.ofNat code = '\x00' := by
      rw [Char.ofNat, dif_neg valid]
      rfl
    rw [zero]
    decide

theorem mem_caseExpansions {letter : Nat} {codes : List Nat}
    (found : caseExpansions.lookup letter = some codes) : (letter, codes) ∈ caseExpansions := by
  obtain ⟨before, behind, table, _⟩ := List.lookup_eq_some_iff.mp found
  rw [table]
  exact List.mem_append_right before List.mem_cons_self

theorem fixed_of_expanded {letter : Nat} {codes : List Nat}
    (found : caseExpansions.lookup letter = some codes) {code : Nat} (member : code ∈ codes) :
    Fixed (Char.ofNat code) := by
  have listed : code ∈ (caseExpansions.flatMap (·.2)).eraseDups := by
    rw [List.mem_eraseDups, List.mem_flatMap]
    exact ⟨_, mem_caseExpansions found, member⟩
  have avoids := List.all_eq_true.mp CaseRun.all_avoidsAll_single code listed
  exact fixed_of_free (CaseRun.free_of_gives avoids (CaseRun.gives_single code))

theorem fixed_of_given {letter code : Nat}
    (mapped : caseRuns.findSome? (·.upper? letter) = some code) : Fixed (Char.ofNat code) := by
  obtain ⟨run, member, given⟩ := List.exists_of_findSome?_eq_some mapped
  have avoids := List.all_eq_true.mp CaseRun.all_avoidsAll run member
  exact fixed_of_free (CaseRun.free_of_gives avoids (CaseRun.gives_of_upper given))

/-- What the mapping gives is its own upper case. -/
theorem fixed_of_mem_upperChar {char image : Char} (member : image ∈ upperChar char) :
    Fixed image := by
  rw [upperChar] at member
  split at member
  · rename_i narrow
    rw [List.mem_singleton] at member
    rw [member]
    exact fixed_toUpper narrow
  · rename_i wide
    rw [upperWide] at member
    split at member
    · rename_i codes found
      obtain ⟨code, codeMember, rfl⟩ := List.mem_map.mp member
      exact fixed_of_expanded found codeMember
    · rename_i unexpanded
      rw [List.mem_singleton] at member
      cases mapped : caseRuns.findSome? (·.upper? char.toNat) with
      | none =>
          rw [mapped] at member
          have same : image = char := member
          rw [same, Fixed, upperChar, if_neg wide, upperWide, unexpanded, mapped]
          rfl
      | some code =>
          rw [mapped] at member
          have same : image = Char.ofNat code := member
          rw [same]
          exact fixed_of_given mapped

theorem upper_of_fixed {text : List Char} (fixed : ∀ char ∈ text, Fixed char) :
    upper text = text := by
  induction text with
  | nil => rfl
  | cons char rest ih =>
      have head : upperChar char = [char] := fixed char List.mem_cons_self
      have tail := ih fun other member => fixed other (List.mem_cons_of_mem _ member)
      rw [upper, List.flatMap_cons, head, ← upper, tail]
      rfl

/-- Upper case is its own upper case. -/
theorem upper_upper (text : List Char) : upper (upper text) = upper text := by
  apply upper_of_fixed
  intro image member
  obtain ⟨char, _, given⟩ := List.mem_flatMap.mp member
  exact fixed_of_mem_upperChar given

end BitSerial.Text
