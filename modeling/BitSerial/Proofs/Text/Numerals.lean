import BitSerial.Proofs.Text.Marks
import BitSerial.Text.Numeral

/-!
# Numerals read back

What is written in a radix is read in it, with or without leading zeros and whatever
the case of the letters.  The digits are capitals, so no reader of assembly text
breaks a numeral or changes it.
-/

namespace BitSerial.Numeral

/-! ## Digits -/

/-- Numerals grow at the end. -/
theorem toDigits_induction {base : Nat} (two : 1 < base) {motive : Nat → List Char → Prop}
    (single : ∀ digit < base, motive digit [digit.digitChar])
    (longer : ∀ value digit, digit < base → motive value (Nat.toDigits base value) →
      motive (base * value + digit) (Nat.toDigits base value ++ [digit.digitChar]))
    (value : Nat) : motive value (Nat.toDigits base value) := by
  induction value using Nat.strongRecOn with
  | ind value ih =>
      rcases Nat.lt_or_ge value base with small | large
      · rw [Nat.toDigits_of_lt_base small]
        exact single value small
      · have shorter : value / base < value :=
          Nat.div_lt_self (Nat.lt_of_lt_of_le (Nat.zero_lt_of_lt two) large) two
        have last : value % base < base := Nat.mod_lt value (Nat.zero_lt_of_lt two)
        have grown := longer (value / base) (value % base) last (ih _ shorter)
        rwa [← Nat.toDigits_of_base_le two large, Nat.div_add_mod] at grown

/-- Every digit of a numeral is written as one is. -/
theorem forall_mem_toDigits {base : Nat} (two : 1 < base) (property : Char → Prop)
    (digits : ∀ digit < base, property digit.digitChar) (value : Nat) :
    ∀ char ∈ Nat.toDigits base value, property char := by
  induction value using toDigits_induction two with
  | single digit small =>
      intro char member
      rw [List.mem_singleton] at member
      exact member ▸ digits digit small
  | longer value digit small ih =>
      intro char member
      rcases List.mem_append.mp member with earlier | last
      · exact ih char earlier
      · rw [List.mem_singleton] at last
        exact last ▸ digits digit small

theorem isCapital_of_mem_decimal {value : Nat} :
    ∀ char ∈ decimal value, Text.isCapital char = true :=
  forall_mem_toDigits (by decide) _ (by decide) value

theorem isDecimal_of_mem_decimal {value : Nat} :
    ∀ char ∈ decimal value, isDecimal char = true :=
  forall_mem_toDigits (by decide) _ (by decide) value

theorem isCapital_of_mem_hexadecimal {value : Nat} :
    ∀ char ∈ hexadecimal value, Text.isCapital char = true := by
  have digits : ∀ digit < 16, Text.isCapital digit.digitChar.toUpper = true := by decide
  have capital := forall_mem_toDigits (by decide)
    (fun char => Text.isCapital char.toUpper = true) digits value
  intro char member
  obtain ⟨digit, written, rfl⟩ := List.mem_map.mp member
  exact capital digit written

theorem isCapital_of_mem_padded {width : Nat} {digits : List Char}
    (capital : ∀ char ∈ digits, Text.isCapital char = true) :
    ∀ char ∈ padded width digits, Text.isCapital char = true := by
  intro char member
  rcases List.mem_append.mp member with zero | digit
  · rw [List.eq_of_mem_replicate zero]
    rfl
  · exact capital char digit

theorem decimal_ne_nil (value : Nat) : decimal value ≠ [] :=
  Nat.toDigits_ne_nil

theorem hexadecimal_ne_nil (value : Nat) : hexadecimal value ≠ [] :=
  mt List.map_eq_nil_iff.mp Nat.toDigits_ne_nil

theorem padded_ne_nil {digits : List Char} (some : digits ≠ []) (width : Nat) :
    padded width digits ≠ [] :=
  List.append_ne_nil_of_right_ne_nil _ some

/-! ## Values -/

/-- However the digits are spelled, if each is worth what it stands for, so is the
numeral. -/
theorem readFrom?_toDigits {base : Nat} (two : 1 < base) {spell : Char → Char}
    (worth : ∀ digit < base, digitIn? base (spell digit.digitChar) = some digit) (value : Nat) :
    readFrom? base 0 ((Nat.toDigits base value).map spell) = some value := by
  induction value using toDigits_induction two with
  | single digit small => simp [readFrom?, worth digit small]
  | longer value digit small ih =>
      rw [List.map_append, readFrom?_append, ih]
      simp [readFrom?, worth digit small]

/-- Leading zeros count for nothing. -/
theorem readFrom?_padded {base : Nat} (pos : 0 < base) (width : Nat) (digits : List Char) :
    readFrom? base 0 (padded width digits) = readFrom? base 0 digits := by
  have zero : digitIn? base '0' = some 0 := by
    rw [digitIn?, show digitValue? '0' = some 0 by rfl, Option.filter_some_pos]
    exact decide_eq_true pos
  have zeros (count : Nat) : readFrom? base 0 (List.replicate count '0') = some 0 := by
    induction count with
    | zero => rfl
    | succ count ih =>
        rw [List.replicate_succ, readFrom?, zero]
        exact ih
  rw [padded, List.leftpad, readFrom?_append, zeros]
  rfl

theorem read?_eq {base : Nat} {digits : List Char} (some : digits ≠ []) :
    read? base digits = readFrom? base 0 digits := by
  cases digits with
  | nil => exact absurd rfl some
  | cons char rest => rfl

/-- Numbers in base ten are read back. -/
theorem read?_decimal (value : Nat) : read? 10 (decimal value) = some value := by
  have digits : ∀ digit < 10, digitIn? 10 (id digit.digitChar) = some digit := by decide
  have read := readFrom?_toDigits (by decide) digits value
  rw [List.map_id] at read
  rw [read?_eq (decimal_ne_nil value)]
  exact read

/-- So are numbers in base sixteen, at any width. -/
theorem read?_padded_hexadecimal (width value : Nat) :
    read? 16 (padded width (hexadecimal value)) = some value := by
  have digits : ∀ digit < 16, digitIn? 16 digit.digitChar.toUpper = some digit := by decide
  rw [read?_eq (padded_ne_nil (hexadecimal_ne_nil value) width), readFrom?_padded (by decide)]
  exact readFrom?_toDigits (by decide) digits value

end BitSerial.Numeral
