import BitSerial.Proofs.Text.Layout
import BitSerial.Proofs.Text.UpperCase

/-!
# Marks in upper case

Blanks and the marks that part a line of assembly text are no letters: the upper-case
mapping gives one only where there was one.  So text that is taken apart at marks
keeps its shape in upper case.
-/

namespace BitSerial.Text

/-- Blanks, and the comma, the colon and the semicolon. -/
def isMark (char : Char) : Bool :=
  isBlank char || char = ',' || char = ':' || char = ';'

/-- The codes of the marks. -/
def markCodes : List Nat :=
  [0x9, 0xA, 0xB, 0xC, 0xD, 0x20, 0x2C, 0x3A, 0x3B, 0x85, 0xA0, 0x1680, 0x2000, 0x2001, 0x2002,
    0x2003, 0x2004, 0x2005, 0x2006, 0x2007, 0x2008, 0x2009, 0x200A, 0x2028, 0x2029, 0x202F, 0x205F,
    0x3000]

theorem mem_markCodes {char : Char} (mark : isMark char = true) : char.toNat ∈ markCodes := by
  simp only [isMark, Bool.or_eq_true, decide_eq_true_eq] at mark
  rcases mark with ((blank | rfl) | rfl) | rfl
  · simp only [isBlank, Bool.or_eq_true, Bool.and_eq_true, decide_eq_true_eq] at blank
    simp only [markCodes, List.mem_cons, List.not_mem_nil, or_false]
    omega
  · decide
  · decide
  · decide

/-! ## Characters that no letter becomes -/

/-- A kind of characters, all with a code that is listed, that the tables of the mapping do
not give. -/
structure Unlettered (kind : Char → Bool) (codes : List Nat) : Prop where
  listed : ∀ char, kind char = true → char.toNat ∈ codes
  nul : kind (Char.ofNat 0) = false
  narrow : ∀ code < 128, kind (Char.ofNat code).toUpper = true →
    (Char.ofNat code).toUpper = Char.ofNat code
  runs : (caseRuns.all fun run =>
    codes.all fun code => run.avoids (CaseRun.single code)) = true
  expansions : (caseExpansions.all fun entry =>
    entry.2.all fun code => !kind (Char.ofNat code)) = true

section

variable {kind : Char → Bool} {codes : List Nat}

/-- No run gives such a character. -/
theorem Unlettered.of_gives (unlettered : Unlettered kind codes) {run : CaseRun}
    (listed : run ∈ caseRuns) {code : Nat} (gives : run.Gives code) :
    kind (Char.ofNat code) = false := by
  by_contra isKind
  rw [Bool.not_eq_false] at isKind
  have valid : code.isValidChar := by
    by_contra invalid
    have isNul : Char.ofNat code = Char.ofNat 0 := by
      rw [Char.ofNat, dif_neg invalid]
      rfl
    rw [isNul, unlettered.nul] at isKind
    cases isKind
  have same : (Char.ofNat code).toNat = code := by
    rw [Char.ofNat, dif_pos valid]
    rfl
  have member := unlettered.listed _ isKind
  rw [same] at member
  have avoids := List.all_eq_true.mp (List.all_eq_true.mp unlettered.runs run listed) code member
  have outside := CaseRun.upper_eq_none_of_avoids avoids gives
  rw [CaseRun.upper?, if_pos ⟨Nat.le_refl _, Nat.le_refl _, Nat.mod_one _⟩] at outside
  cases outside

/-- So does no expansion. -/
theorem Unlettered.of_lookup (unlettered : Unlettered kind codes) {letter : Nat}
    {expansion : List Nat} (found : caseExpansions.lookup letter = some expansion) :
    ∀ code ∈ expansion, kind (Char.ofNat code) = false := by
  have checked := List.all_eq_true.mp unlettered.expansions _ (mem_caseExpansions found)
  simpa using checked

/-- Such a character comes from itself alone. -/
theorem Unlettered.eq_of_mem (unlettered : Unlettered kind codes) {char image : Char}
    (member : image ∈ upperChar char) (isKind : kind image = true) : image = char := by
  rw [upperChar] at member
  split at member
  · rename_i narrow
    rw [List.mem_singleton] at member
    rw [member] at isKind ⊢
    exact forall_of_forall_code (fun char => kind char.toUpper = true → char.toUpper = char)
      unlettered.narrow narrow isKind
  · rw [upperWide] at member
    split at member
    · rename_i expansion found
      obtain ⟨code, codeMember, rfl⟩ := List.mem_map.mp member
      rw [unlettered.of_lookup found code codeMember] at isKind
      cases isKind
    · rw [List.mem_singleton] at member
      cases mapped : caseRuns.findSome? (·.upper? char.toNat) with
      | none =>
          rw [mapped] at member
          exact member
      | some code =>
          rw [mapped] at member
          obtain ⟨run, listed, given⟩ := List.exists_of_findSome?_eq_some mapped
          have other := unlettered.of_gives listed (CaseRun.gives_of_upper given)
          have same : image = Char.ofNat code := member
          rw [same, other] at isKind
          cases isKind

end

theorem unlettered_isMark : Unlettered isMark markCodes where
  listed _ := mem_markCodes
  nul := by decide
  narrow := by decide +kernel
  runs := by decide +kernel
  expansions := by decide +kernel

/-- A mark comes from that mark alone. -/
theorem eq_of_isMark {char image : Char} (member : image ∈ upperChar char)
    (mark : isMark image = true) : image = char :=
  unlettered_isMark.eq_of_mem member mark

theorem all_expansions_ne_nil : (caseExpansions.all fun entry => entry.2 ≠ []) = true := by
  decide +kernel

theorem upperChar_ne_nil (char : Char) : upperChar char ≠ [] := by
  rw [upperChar]
  split
  · exact List.cons_ne_nil _ _
  · rw [upperWide]
    split
    · rename_i expansion found
      have checked := List.all_eq_true.mp all_expansions_ne_nil _ (mem_caseExpansions found)
      exact mt List.map_eq_nil_iff.mp (of_decide_eq_true checked)
    · exact List.cons_ne_nil _ _

/-! ## Capitals -/

/-- A capital letter or a digit of ASCII. -/
def isCapital (char : Char) : Bool :=
  let code := char.toNat
  (0x30 ≤ code && code ≤ 0x39) || (0x41 ≤ code && code ≤ 0x5A)

theorem toNat_lt_of_isCapital {char : Char} (capital : isCapital char = true) :
    char.toNat < 128 := by
  simp only [isCapital, Bool.or_eq_true, Bool.and_eq_true, decide_eq_true_eq] at capital
  omega

theorem not_isMark_of_isCapital {char : Char} (capital : isCapital char = true) :
    isMark char = false :=
  forall_of_forall_code (fun char => isCapital char = true → isMark char = false)
    (by decide +kernel) (toNat_lt_of_isCapital capital) capital

theorem fixed_of_isCapital {char : Char} (capital : isCapital char = true) : Fixed char :=
  forall_of_forall_code (fun char => isCapital char = true → Fixed char)
    (by decide +kernel) (toNat_lt_of_isCapital capital) capital

theorem not_isBlank_of_isCapital {char : Char} (capital : isCapital char = true) :
    isBlank char = false := by
  have unmarked := not_isMark_of_isCapital capital
  simp only [isMark, Bool.or_eq_false_iff] at unmarked
  exact unmarked.1.1.1

/-! ## Texts -/

/-- The marks of a text in upper case are the text's own. -/
theorem mem_of_mem_upper {text : List Char} {image : Char} (member : image ∈ upper text)
    (mark : isMark image = true) : image ∈ text := by
  obtain ⟨char, inside, given⟩ := List.mem_flatMap.mp member
  rwa [eq_of_isMark given mark]

theorem solid_upperChar {char : Char} (solid : isBlank char = false) :
    ∀ image ∈ upperChar char, isBlank image = false := by
  intro image member
  by_contra blank
  rw [Bool.not_eq_false] at blank
  have mark : isMark image = true := by rw [isMark, blank]; rfl
  rw [eq_of_isMark member mark, solid] at blank
  cases blank

/-- Text without blanks at its ends has none there in upper case. -/
theorem Trimmed.upper {text : List Char} (trimmed : Trimmed text) :
    Trimmed (Text.upper text) where
  opens := by
    cases text with
    | nil => exact trimmed.opens
    | cons char rest =>
        have solid := solid_upperChar (trimmed.opens char rfl)
        exact (trimmed_of_solid solid).opens.append (upperChar_ne_nil char) _
  closes := by
    rcases text.eq_nil_or_concat with rfl | ⟨front, char, rfl⟩
    · exact trimmed.closes
    · have last : isBlank char = false := trimmed.closes char (by simp)
      have solid := trimmed_of_solid (solid_upperChar last)
      have single : Text.upper [char] = upperChar char := List.append_nil _
      rw [List.concat_eq_append, upper_append, single, List.reverse_append]
      exact solid.closes.append (mt List.reverse_eq_nil_iff.mp (upperChar_ne_nil char)) _

end BitSerial.Text
