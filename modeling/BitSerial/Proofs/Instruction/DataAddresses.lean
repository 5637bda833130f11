import BitSerial.Instruction

/-!
# Data addresses in operands

An operand carries an address in its low eight bits, four for the bank and four for the
word.  An address whose parts are that small is carried whole; of any other one the
operand keeps something, and reading it back gives a small address again.
-/

namespace BitSerial.DataAddress

theorem toNat_nibble (part : BitVec 8) : (part &&& 0x0F#8).toNat = part.toNat % 16 := by
  rw [BitVec.toNat_and]
  exact Nat.and_two_pow_sub_one_eq_mod _ 4

theorem nibble_eq_self {part : BitVec 8} (small : part.toNat < 16) : part &&& 0x0F#8 = part := by
  apply BitVec.eq_of_toNat_eq
  rw [toNat_nibble, Nat.mod_eq_of_lt small]

/-- An address whose parts have four bits. -/
structure Narrow (address : DataAddress) : Prop where
  bank_lt : address.bank.toNat < 16
  word_lt : address.word.toNat < 16

instance (address : DataAddress) : Decidable address.Narrow :=
  decidable_of_iff (address.bank.toNat < 16 ∧ address.word.toNat < 16)
    ⟨fun ⟨bank, word⟩ => ⟨bank, word⟩, fun ⟨bank, word⟩ => ⟨bank, word⟩⟩

/-- An operand holds no other addresses. -/
theorem narrow_ofOperand (operand : Operand) : (ofOperand operand).Narrow where
  bank_lt := by
    rw [ofOperand, ofNibbles, toNat_nibble]
    exact Nat.mod_lt _ (by decide)
  word_lt := by
    rw [ofOperand, ofNibbles, toNat_nibble]
    exact Nat.mod_lt _ (by decide)

theorem Narrow.ofNibbles_eq {address : DataAddress} (narrow : address.Narrow) :
    ofNibbles address.bank address.word = address := by
  rw [ofNibbles, nibble_eq_self narrow.bank_lt, nibble_eq_self narrow.word_lt]

/-! ## Bank and word as digits -/

theorem toNat_bank_ofOperand (operand : Operand) :
    (ofOperand operand).bank.toNat = operand.toNat / 16 % 16 := by
  rw [ofOperand, ofNibbles, toNat_nibble, BitVec.toNat_setWidth, BitVec.toNat_ushiftRight,
    Nat.shiftRight_eq_div_pow]
  omega

theorem toNat_word_ofOperand (operand : Operand) :
    (ofOperand operand).word.toNat = operand.toNat % 16 := by
  rw [ofOperand, ofNibbles, toNat_nibble, BitVec.toNat_setWidth]
  omega

/-- The two digits of a narrow address are an operand to the base sixteen. -/
theorem Narrow.toNat_toOperand {address : DataAddress} (narrow : address.Narrow) :
    address.toOperand.toNat = 16 * address.bank.toNat + address.word.toNat := by
  have bank := narrow.bank_lt
  have word := narrow.word_lt
  have shifted : (address.bank.toNat % 2 ^ 32) <<< 4 % 2 ^ 32 = address.bank.toNat <<< 4 := by
    simp only [Nat.shiftLeft_eq]
    omega
  have same : address.word.toNat % 2 ^ 32 = address.word.toNat := by omega
  rw [toOperand, BitVec.toNat_or, BitVec.toNat_shiftLeft, BitVec.toNat_setWidth,
    BitVec.toNat_setWidth, shifted, same, ← Nat.shiftLeft_add_eq_or_of_lt word, Nat.shiftLeft_eq]
  omega

theorem ext_toNat {left right : DataAddress} (bank : left.bank.toNat = right.bank.toNat)
    (word : left.word.toNat = right.word.toNat) : left = right := by
  rcases left with ⟨leftBank, leftWord⟩
  rcases right with ⟨rightBank, rightWord⟩
  rw [mk.injEq]
  exact ⟨BitVec.eq_of_toNat_eq bank, BitVec.eq_of_toNat_eq word⟩

/-- A narrow address comes back from its operand. -/
theorem Narrow.ofOperand_toOperand {address : DataAddress} (narrow : address.Narrow) :
    ofOperand address.toOperand = address := by
  have bank := narrow.bank_lt
  have word := narrow.word_lt
  apply ext_toNat
  · rw [toNat_bank_ofOperand, narrow.toNat_toOperand]
    omega
  · rw [toNat_word_ofOperand, narrow.toNat_toOperand]
    omega

/-- Of an operand only the low byte comes back from its address. -/
theorem toOperand_ofOperand (operand : Operand) :
    (ofOperand operand).toOperand = operand &&& 0xFF#32 := by
  apply BitVec.eq_of_toNat_eq
  rw [(narrow_ofOperand operand).toNat_toOperand, toNat_bank_ofOperand, toNat_word_ofOperand,
    BitVec.toNat_and]
  have low : operand.toNat &&& (0xFF#32).toNat = operand.toNat % 2 ^ 8 :=
    Nat.and_two_pow_sub_one_eq_mod _ 8
  rw [low]
  omega

end BitSerial.DataAddress
