import BitSerial.Word

/-!
# Sums without a carry

Words that share no bit are added without a carry, from whichever end the carry
would have run.  So an operand can be added to a word that stands turned round.
-/

namespace BitSerial.Word

theorem reverse_or {w : Nat} (left right : BitVec w) :
    (left ||| right).reverse = left.reverse ||| right.reverse := by
  apply BitVec.eq_of_getLsbD_eq
  intro place _
  simp only [BitVec.getLsbD_or, BitVec.getLsbD_reverse, BitVec.getMsbD_or]

theorem reverse_and {w : Nat} (left right : BitVec w) :
    (left &&& right).reverse = left.reverse &&& right.reverse := by
  apply BitVec.eq_of_getLsbD_eq
  intro place _
  simp only [BitVec.getLsbD_and, BitVec.getLsbD_reverse, BitVec.getMsbD_and]

theorem reverse_zero (w : Nat) : (0#w).reverse = 0#w := by
  apply BitVec.eq_of_getLsbD_eq
  intro place _
  simp [BitVec.getLsbD_reverse]

/-- Turned round or not, numbers without a common bit add up to all their bits. -/
theorem reverse_add_reverse {w : Nat} {left right : BitVec w}
    (apart : left &&& right = 0#w) :
    (left.reverse + right.reverse).reverse = left ||| right := by
  have apartReversed : left.reverse &&& right.reverse = 0#w := by
    rw [← reverse_and, apart, reverse_zero]
  rw [BitVec.add_eq_or_of_and_eq_zero _ _ apartReversed, ← reverse_or, BitVec.reverse_reverse_eq]

theorem getLsbD_ofParts (opcode : BitVec 8) (operand : Operand) (place : Nat) :
    (ofParts opcode operand).getLsbD place =
      if place < 32 then operand.getLsbD place else opcode.getLsbD (place - 32) := by
  rw [ofParts, BitVec.getLsbD_append]

/-- An operand joins that of a word and leaves its opcode alone. -/
theorem ofParts_or_setWidth (opcode : BitVec 8) (left right : Operand) :
    ofParts opcode left ||| right.setWidth 40 = ofParts opcode (left ||| right) := by
  apply BitVec.eq_of_getLsbD_eq
  intro place inside
  rw [BitVec.getLsbD_or, getLsbD_ofParts, getLsbD_ofParts, BitVec.getLsbD_setWidth]
  split
  · simp [inside]
  · rename_i high
    simp [BitVec.getLsbD_of_ge right place (Nat.le_of_not_lt high)]

theorem ofParts_and_setWidth (opcode : BitVec 8) {left right : Operand}
    (apart : left &&& right = 0) : ofParts opcode left &&& right.setWidth 40 = 0#40 := by
  apply BitVec.eq_of_getLsbD_eq
  intro place inside
  rw [BitVec.getLsbD_and, getLsbD_ofParts, BitVec.getLsbD_setWidth]
  split
  · have bit := congrArg (fun word : Operand => word.getLsbD place) apart
    simpa [inside] using bit
  · rename_i high
    simp [BitVec.getLsbD_of_ge right place (Nat.le_of_not_lt high)]

/-- Adding a turned operand to a turned word puts it into the word's operand, if
the two share no bit. -/
theorem add_turned (opcode : BitVec 8) {operand link : Operand} (apart : operand &&& link = 0) :
    ((ofParts opcode operand).reverse + (link.setWidth 40).reverse).reverse =
      ofParts opcode (operand ||| link) := by
  rw [reverse_add_reverse (ofParts_and_setWidth opcode apart), ofParts_or_setWidth]

end BitSerial.Word
