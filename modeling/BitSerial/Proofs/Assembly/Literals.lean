import BitSerial.Assembly.Literal
import BitSerial.Proofs.Text.Numerals

/-!
# Numbers in assembly text, read back

Decimal numerals, and hexadecimal ones behind their mark, are numbers of just the
value that was written.
-/

namespace BitSerial.Literal

theorem bounded_of_lt {value : Nat} (small : value < countLimit) :
    bounded (some value) = some value := by
  rw [bounded, Option.filter_some_pos]
  exact decide_eq_true small

/-- Behind a radix mark only a plus sign is not a digit. -/
theorem marked_eq {base : Nat} {digits : List Char} (unsigned : '+' ∉ digits) :
    marked base digits = bounded (Numeral.read? base digits) := by
  rw [marked.eq_def]
  split
  · exact absurd List.mem_cons_self unsigned
  · rfl

/-- Digits alone are a decimal numeral, since the letters of the radix marks are
none. -/
theorem magnitudeOf?_of_isDecimal {text : List Char} (written : text ≠ [])
    (digits : ∀ char ∈ text, Numeral.isDecimal char = true) :
    magnitudeOf? text = some (bounded (Numeral.read? 10 text)) := by
  rw [magnitudeOf?.eq_def]
  split
  · exact absurd (digits 'X' (by simp)) (by decide)
  · exact absurd (digits 'B' (by simp)) (by decide)
  · exact absurd rfl written
  · rw [if_pos (digits _ List.mem_cons_self)]

theorem ofText?_of_unsigned {text : List Char} (unsigned : '-' ∉ text) :
    ofText? text = (magnitudeOf? text).map fun magnitude => ⟨false, magnitude⟩ := by
  rw [ofText?.eq_def]
  split
  · exact absurd List.mem_cons_self unsigned
  · rfl

theorem not_mem_of_isCapital {digits : List Char}
    (capital : ∀ char ∈ digits, Text.isCapital char = true) {sign : Char}
    (isSign : Text.isCapital sign = false) : sign ∉ digits := by
  intro member
  rw [capital sign member] at isSign
  cases isSign

theorem ofText?_decimal {value : Nat} (small : value < countLimit) :
    ofText? (Numeral.decimal value) = some ⟨false, some value⟩ := by
  have unsigned : '-' ∉ Numeral.decimal value :=
    not_mem_of_isCapital Numeral.isCapital_of_mem_decimal (by decide)
  rw [ofText?_of_unsigned unsigned,
    magnitudeOf?_of_isDecimal (Numeral.decimal_ne_nil value) Numeral.isDecimal_of_mem_decimal,
    Numeral.read?_decimal, bounded_of_lt small]
  rfl

theorem ofText?_hexadecimal {value : Nat} (small : value < countLimit) (width : Nat) :
    ofText? ('0' :: 'X' :: Numeral.padded width (Numeral.hexadecimal value)) =
      some ⟨false, some value⟩ := by
  have capital : ∀ char ∈ Numeral.padded width (Numeral.hexadecimal value),
      Text.isCapital char = true :=
    Numeral.isCapital_of_mem_padded Numeral.isCapital_of_mem_hexadecimal
  have signless : '+' ∉ Numeral.padded width (Numeral.hexadecimal value) :=
    not_mem_of_isCapital capital (by decide)
  have read : marked 16 (Numeral.padded width (Numeral.hexadecimal value)) = some value := by
    rw [marked_eq signless, Numeral.read?_padded_hexadecimal, bounded_of_lt small]
  show some (Literal.mk false (marked 16 _)) = _
  rw [read]

/-- A number that fits in an operand is that operand. -/
theorem operand?_toNat (operand : Operand) :
    operand? ⟨false, some operand.toNat⟩ = some operand := by
  have fits : operand.toNat < operandLimit := operand.isLt
  show (if operand.toNat < operandLimit then some (BitVec.ofNat 32 operand.toNat) else none) = _
  rw [if_pos fits, BitVec.ofNat_toNat, BitVec.setWidth_eq]

/-- A number that fits in a word is that word. -/
theorem word?_toNat (word : Word) : word? ⟨false, some word.toNat⟩ = some word := by
  show some (BitVec.ofNat 40 word.toNat) = _
  rw [BitVec.ofNat_toNat, BitVec.setWidth_eq]

end BitSerial.Literal
