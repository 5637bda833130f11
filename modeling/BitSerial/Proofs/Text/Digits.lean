import BitSerial.Proofs.Text.Letters
import BitSerial.Proofs.Text.Numerals
import Mathlib.Data.List.Forall2
import Mathlib.Data.Nat.Digits.Defs
import Mathlib.Tactic.Ring

/-!
# Digits by place

A numeral is read as the sum of its digits, each of them counted by its place, and every
text that is read is such a numeral.
-/

namespace BitSerial.Numeral

/-- A character is a digit of a radix, in either case. -/
structure IsDigit (base : Nat) (char : Char) (digit : Nat) : Prop where
  lt_base : digit < base
  written : char = digit.digitChar ∨ char = digit.digitChar.toUpper

/-- A text is a numeral of a radix: one digit or more, the last of them counted once and
each other one by its place in front of it. -/
def Denotes (base : Nat) (text : List Char) (value : Nat) : Prop :=
  ∃ digits, text ≠ [] ∧ List.Forall₂ (IsDigit base) text digits ∧
    value = Nat.ofDigits base digits.reverse

variable {base digit start value : Nat} {char : Char} {text : List Char}

theorem toNat_lt_of_digitValue (worth : digitValue? char = some digit) : char.toNat < 128 := by
  rw [digitValue?] at worth
  have last : '9'.toNat < 128 ∧ 'F'.toNat < 128 ∧ 'f'.toNat < 128 := by decide
  split at worth
  · omega
  · split at worth
    · omega
    · split at worth
      · omega
      · cases worth

theorem toNat_lt_of_isDecimal (digit : isDecimal char = true) : char.toNat < 128 := by
  rw [isDecimal, Option.isSome_iff_exists] at digit
  obtain ⟨value, isDigit⟩ := digit
  rw [digitIn?, Option.filter_eq_some_iff] at isDigit
  exact toNat_lt_of_digitValue isDigit.1

theorem digitValue?_eq_some_iff (small : digit < 16) :
    digitValue? char = some digit ↔ char = digit.digitChar ∨ char = digit.digitChar.toUpper := by
  constructor
  · intro worth
    have codes : ∀ code < 128, ∀ digit < 16, digitValue? (Char.ofNat code) = some digit →
        Char.ofNat code = digit.digitChar ∨ Char.ofNat code = digit.digitChar.toUpper := by
      decide +kernel
    exact Text.forall_of_forall_code (fun char => ∀ digit < 16, digitValue? char = some digit →
      char = digit.digitChar ∨ char = digit.digitChar.toUpper) codes
      (toNat_lt_of_digitValue worth) digit small worth
  · have digits : ∀ digit < 16, digitValue? digit.digitChar = some digit ∧
        digitValue? digit.digitChar.toUpper = some digit := by
      decide +kernel
    rintro (rfl | rfl)
    · exact (digits digit small).1
    · exact (digits digit small).2

/-- Every character of a numeral is a digit. -/
theorem Denotes.exists_isDigit (denotes : Denotes base text value) :
    ∀ char ∈ text, ∃ digit, IsDigit base char digit := by
  obtain ⟨digits, -, written, -⟩ := denotes
  induction written with
  | nil => exact fun _ member => nomatch member
  | cons first _ ih => exact List.forall_mem_cons.mpr ⟨⟨_, first⟩, fun char => ih char⟩

variable (upToSixteen : base ≤ 16)
include upToSixteen

theorem digitIn?_eq_some_iff : digitIn? base char = some digit ↔ IsDigit base char digit := by
  rw [digitIn?, Option.filter_eq_some_iff, decide_eq_true_eq]
  constructor
  · rintro ⟨worth, inside⟩
    have small := Nat.lt_of_lt_of_le inside upToSixteen
    exact ⟨inside, (digitValue?_eq_some_iff small).mp worth⟩
  · rintro ⟨inside, written⟩
    have small := Nat.lt_of_lt_of_le inside upToSixteen
    exact ⟨(digitValue?_eq_some_iff small).mpr written, inside⟩

/-- What was read before counts by all places behind it. -/
theorem readFrom?_eq_some_iff :
    readFrom? base start text = some value ↔
      ∃ digits, List.Forall₂ (IsDigit base) text digits ∧
        value = start * base ^ text.length + Nat.ofDigits base digits.reverse := by
  induction text generalizing start with
  | nil =>
      rw [readFrom?, Option.some.injEq]
      constructor
      · rintro rfl
        exact ⟨[], .nil, by simp⟩
      · rintro ⟨_, ⟨⟩, rfl⟩
        simp
  | cons char rest ih =>
      have place (digit : Nat) (digits : List Nat) (same : rest.length = digits.length) :
          (base * start + digit) * base ^ rest.length + Nat.ofDigits base digits.reverse =
            start * base ^ (char :: rest).length +
              Nat.ofDigits base (digit :: digits).reverse := by
        rw [List.reverse_cons, Nat.ofDigits_append, Nat.ofDigits_singleton, List.length_reverse,
          ← same, List.length_cons]
        ring
      rw [readFrom?, Option.bind_eq_some_iff]
      constructor
      · rintro ⟨digit, isDigit, read⟩
        obtain ⟨digits, written, rfl⟩ := ih.mp read
        have first := (digitIn?_eq_some_iff upToSixteen).mp isDigit
        exact ⟨digit :: digits, .cons first written, place digit digits written.length_eq⟩
      · rintro ⟨_, written, rfl⟩
        cases written with
        | @cons _ digit _ digits first written =>
            refine ⟨digit, (digitIn?_eq_some_iff upToSixteen).mpr first, ih.mpr ?_⟩
            exact ⟨digits, written, (place digit digits written.length_eq).symm⟩

/-- What is read is just what is denoted. -/
theorem read?_eq_some_iff : read? base text = some value ↔ Denotes base text value := by
  cases text with
  | nil =>
      constructor
      · rintro ⟨⟩
      · rintro ⟨_, some, _⟩
        exact absurd rfl some
  | cons char rest =>
      rw [read?_eq (List.cons_ne_nil char rest), readFrom?_eq_some_iff upToSixteen]
      simp only [Nat.zero_mul, Nat.zero_add, Denotes, ne_eq, reduceCtorEq, not_false_eq_true,
        true_and]

theorem IsDigit.toUpper (isDigit : IsDigit base char digit) :
    IsDigit base char.toUpper digit := by
  have digits : ∀ digit < 16, digit.digitChar.toUpper.toUpper = digit.digitChar.toUpper := by
    decide
  refine ⟨isDigit.lt_base, .inr ?_⟩
  rcases isDigit.written with rfl | rfl
  · rfl
  · exact digits digit (Nat.lt_of_lt_of_le isDigit.lt_base upToSixteen)

/-- A numeral is one of the same value in upper case. -/
theorem Denotes.upper (denotes : Denotes base text value) :
    Denotes base (Text.upper text) value := by
  have narrow : ∀ char ∈ text, char.toNat < 128 := by
    intro char member
    obtain ⟨digit, isDigit⟩ := denotes.exists_isDigit char member
    have worth := (digitIn?_eq_some_iff upToSixteen).mpr isDigit
    exact toNat_lt_of_digitValue (Option.filter_eq_some_iff.mp worth).1
  obtain ⟨digits, some, written, rfl⟩ := denotes
  rw [Text.upper_of_narrow narrow]
  refine ⟨digits, mt List.map_eq_nil_iff.mp some, ?_, rfl⟩
  exact List.forall₂_map_left_iff.mpr (written.imp fun _ _ isDigit => isDigit.toUpper upToSixteen)

end BitSerial.Numeral
