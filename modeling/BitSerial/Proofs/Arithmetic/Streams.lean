import BitSerial.Arithmetic
import BitSerial.Proofs.DelayLine.Pulses
import BitSerial.Proofs.StreamOrder.Words

/-!
# Loops over register lines

Each loop of the arithmetic writes a stream that depends only on the streams the
lines emit.  The loops are read here as such writes, and the one stream that is
not bit by bit, the sum with its carry, is worth the sum of the numbers.
-/

namespace BitSerial.Arithmetic

open DelayLine
open StreamOrder

/-- The sum of two streams, lowest bits first, with a carry running through.
The last carry is lost. -/
def sumStream : Bit → List Bit → List Bit → List Bit
  | carry, left :: lefts, right :: rights =>
      (Bit.fullAdd left right carry).1 :: sumStream (Bit.fullAdd left right carry).2 lefts rights
  | _, _, _ => []

@[simp]
theorem length_sumStream (carry : Bit) (left right : List Bit) :
    (sumStream carry left right).length = min left.length right.length := by
  induction left generalizing carry right with
  | nil => simp [sumStream]
  | cons bit left ih =>
      cases right with
      | nil => simp [sumStream]
      | cons other right => simp [sumStream, ih]

/-- The stream of a sum is the sum of the numbers, up to the carry lost. -/
theorem fromLow_sumStream (carry : Bit) {left right : List Bit}
    (length : left.length = right.length) :
    fromLow (sumStream carry left right) =
      (fromLow left + fromLow right + carry.toNat) % 2 ^ left.length := by
  induction left generalizing carry right with
  | nil => simp [sumStream, Nat.mod_one]
  | cons bit left ih =>
      cases right with
      | nil => simp at length
      | cons other right =>
          have digit := Bit.toNat_fullAdd bit other carry
          have bounded := Bool.toNat_le (Bit.fullAdd bit other carry).1
          have total : fromLow (bit :: left) + fromLow (other :: right) + carry.toNat =
              (Bit.fullAdd bit other carry).1.toNat + 2 * (fromLow left + fromLow right +
                (Bit.fullAdd bit other carry).2.toNat) := by
            rw [fromLow_cons, fromLow_cons]
            omega
          rw [sumStream, fromLow_cons, ih _ (Nat.succ.inj length), List.length_cons, Nat.pow_succ',
            total, Nat.mod_mul]
          congr 1
          · omega
          · congr 2
            omega

theorem ripple_eq (carry : Bit) (sum addend : DelayLine 40) {count : Nat} (short : count ≤ 40) :
    ripple count carry sum addend =
      (sum.writeAll (sumStream carry (sum.bits.take count) (addend.bits.take count)),
        addend.advance count) := by
  induction count generalizing carry sum addend with
  | zero => rfl
  | succ count ih =>
      rw [ripple, ih _ _ _ (Nat.le_of_succ_le short), take_bits_write _ _ short,
        take_bits_pulse _ short, take_bits_succ sum, take_bits_succ addend]
      rfl

theorem invert_eq (line : DelayLine 40) {count : Nat} (short : count ≤ 40) :
    invert count line = line.writeAll ((line.bits.take count).map not) := by
  induction count generalizing line with
  | zero => rfl
  | succ count ih =>
      rw [invert, ih _ (Nat.le_of_succ_le short), take_bits_write _ _ short, take_bits_succ]
      rfl

theorem carryThrough_eq (carry : Bit) (line : DelayLine 40) {count : Nat} (short : count ≤ 40) :
    carryThrough count carry line =
      line.writeAll (sumStream carry (line.bits.take count) (List.replicate count false)) := by
  induction count generalizing carry line with
  | zero => rfl
  | succ count ih =>
      rw [carryThrough, ih _ _ (Nat.le_of_succ_le short), take_bits_write _ _ short, take_bits_succ]
      rfl

theorem combine_eq (operation : Bit → Bit → Bit) (left right : DelayLine 40) {count : Nat}
    (short : count ≤ 40) :
    combine operation count left right =
      (left.writeAll (List.zipWith operation (left.bits.take count) (right.bits.take count)),
        right.advance count) := by
  induction count generalizing left right with
  | zero => rfl
  | succ count ih =>
      rw [combine, ih _ _ (Nat.le_of_succ_le short), take_bits_write _ _ short,
        take_bits_pulse _ short, take_bits_succ left, take_bits_succ right]
      rfl

/-- A bitwise operation on words is the operation on their streams. -/
theorem zipWith_bits (operation : Bit → Bit → Bit) {left right result : Word}
    (bitwise : ∀ place < 40, result.getLsbD place =
      operation (left.getLsbD place) (right.getLsbD place)) :
    List.zipWith operation (lowFirst.bits left) (lowFirst.bits right) = lowFirst.bits result := by
  apply List.ext_getElem
  · simp
  · intro place inside _
    rw [List.length_zipWith, StreamOrder.length_bits, StreamOrder.length_bits,
      Nat.min_self] at inside
    rw [List.getElem_zipWith, getElem_bits, getElem_bits, getElem_bits]
    exact (bitwise place inside).symm

theorem map_not_bits (word : Word) : (lowFirst.bits word).map not = lowFirst.bits (~~~word) := by
  apply List.ext_getElem
  · simp
  · intro place inside _
    rw [List.length_map, StreamOrder.length_bits] at inside
    rw [List.getElem_map, getElem_bits, getElem_bits, index, BitVec.getLsbD_not]
    simp [inside]

/-- Streams add as words do. -/
theorem sumStream_bits (left right : Word) :
    sumStream false (lowFirst.bits left) (lowFirst.bits right) = lowFirst.bits (left + right) := by
  apply eq_bits_of_fromLow
  · simp
  · rw [fromLow_sumStream false (by simp), fromLow_bits, fromLow_bits, StreamOrder.length_bits,
      BitVec.toNat_add]
    rfl

/-- Adding nothing but a carry adds one. -/
theorem sumStream_one (word : Word) :
    sumStream true (lowFirst.bits word) (List.replicate 40 false) =
      lowFirst.bits (word + 1#40) := by
  apply eq_bits_of_fromLow
  · simp
  · rw [fromLow_sumStream true (by simp), fromLow_bits, fromLow_replicate_false,
      StreamOrder.length_bits,
      BitVec.toNat_add]
    rfl

end BitSerial.Arithmetic
