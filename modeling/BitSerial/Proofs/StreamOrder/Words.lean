import BitSerial.StreamOrder
import Mathlib.Algebra.Group.Nat.Defs

/-!
# Words and their streams

A word and the forty bits it streams as determine each other in either order,
and the two orders are each other's reversal.  What a list of bits is worth as a
number, lowest bit first, is followed through appending, so that arithmetic on
streams can be compared with arithmetic on words.
-/

namespace BitSerial.StreamOrder

/-! ## Numbers, lowest bit first -/

@[simp]
theorem fromLow_nil : fromLow [] = 0 :=
  rfl

@[simp]
theorem fromLow_cons (bit : Bit) (rest : List Bit) :
    fromLow (bit :: rest) = bit.toNat + 2 * fromLow rest :=
  rfl

theorem fromLow_append (low high : List Bit) :
    fromLow (low ++ high) = fromLow low + 2 ^ low.length * fromLow high := by
  induction low with
  | nil => simp
  | cons bit low ih =>
      rw [List.cons_append, fromLow_cons, fromLow_cons, ih, List.length_cons, Nat.pow_succ,
        Nat.mul_add, Nat.mul_comm (2 ^ low.length) 2, Nat.mul_assoc, Nat.add_assoc]

@[simp]
theorem fromLow_replicate_false (count : Nat) : fromLow (List.replicate count false) = 0 := by
  induction count with
  | zero => rfl
  | succ count ih => rw [List.replicate_succ, fromLow_cons, ih]; rfl

theorem fromLow_lt (bits : List Bit) : fromLow bits < 2 ^ bits.length := by
  induction bits with
  | nil => exact Nat.one_pos
  | cons bit rest ih =>
      have bounded := Bool.toNat_le bit
      rw [fromLow_cons, List.length_cons, Nat.pow_succ]
      omega

/-- The lowest bits of a number are the number modulo a power of two. -/
theorem fromLow_take (bits : List Bit) {count : Nat} (short : count ≤ bits.length) :
    fromLow (bits.take count) = fromLow bits % 2 ^ count := by
  have length : (bits.take count).length = count := by
    rw [List.length_take, Nat.min_eq_left short]
  have bounded : fromLow (bits.take count) < 2 ^ count := by
    have lt := fromLow_lt (bits.take count)
    rwa [length] at lt
  have parts := fromLow_append (bits.take count) (bits.drop count)
  rw [List.take_append_drop, length] at parts
  rw [parts, Nat.add_mul_mod_self_left, Nat.mod_eq_of_lt bounded]

/-- A list of bits is determined by its length and its number. -/
theorem eq_of_fromLow_eq {left right : List Bit} (length : left.length = right.length)
    (number : fromLow left = fromLow right) : left = right := by
  apply List.ext_getElem length
  intro place leftInside rightInside
  have bit := congrArg (fun number => number.testBit place) number
  simpa [testBit_fromLow, leftInside, rightInside] using bit

/-! ## Words -/

@[simp]
theorem fromLow_bits (word : Word) : fromLow (lowFirst.bits word) = word.toNat := by
  apply Nat.eq_of_testBit_eq
  intro place
  rw [testBit_fromLow, BitVec.testBit_toNat]
  by_cases inside : place < 40
  · simp [bits, inside, index]
  · have outside : (lowFirst.bits word)[place]? = none :=
      List.getElem?_eq_none (by rw [length_bits]; omega)
    rw [outside, Option.getD_none, BitVec.getLsbD_of_ge word place (by omega)]

/-- Forty bits are the stream of the word with their number. -/
theorem eq_bits_of_fromLow {bits : List Bit} {word : Word} (length : bits.length = 40)
    (number : fromLow bits = word.toNat) : bits = lowFirst.bits word :=
  eq_of_fromLow_eq (length.trans (length_bits lowFirst word).symm)
    (number.trans (fromLow_bits word).symm)

/-- Streaming high bits first is streaming low bits first backwards. -/
theorem bits_highFirst (word : Word) : highFirst.bits word = (lowFirst.bits word).reverse := by
  apply List.ext_getElem
  · simp
  · intro place inside _
    rw [length_bits] at inside
    rw [List.getElem_reverse, getElem_bits, getElem_bits]
    simp only [length_bits, index]

/-- A word turned round streams the other way. -/
theorem bits_reverse (word : Word) : lowFirst.bits word.reverse = highFirst.bits word := by
  apply List.ext_getElem
  · simp
  · intro place inside _
    rw [length_bits] at inside
    rw [getElem_bits, getElem_bits, index, index, BitVec.getLsbD_reverse, BitVec.getMsbD_eq_getLsbD]
    simp [inside]

@[simp]
theorem collect_bits (order : StreamOrder) (word : Word) :
    order.collect (order.bits word) = word := by
  have low : BitVec.ofNat 40 (fromLow ((lowFirst.bits word).take 40)) = word := by
    rw [List.take_of_length_le (by simp), fromLow_bits, BitVec.ofNat_toNat, BitVec.setWidth_eq]
  cases order with
  | lowFirst => exact low
  | highFirst =>
      rw [collect, fromHigh_eq_fromLow_reverse, List.take_of_length_le (by simp), bits_highFirst,
        List.reverse_reverse, fromLow_bits, BitVec.ofNat_toNat, BitVec.setWidth_eq]

@[simp]
theorem bits_collect (order : StreamOrder) {bits : List Bit} (length : bits.length = 40) :
    order.bits (order.collect bits) = bits := by
  have low (bits : List Bit) (length : bits.length = 40) :
      lowFirst.bits (BitVec.ofNat 40 (fromLow bits)) = bits := by
    have bounded := fromLow_lt bits
    rw [length] at bounded
    refine (eq_bits_of_fromLow length ?_).symm
    rw [BitVec.toNat_ofNat, Nat.mod_eq_of_lt bounded]
  cases order with
  | lowFirst =>
      rw [collect, List.take_of_length_le (Nat.le_of_eq length)]
      exact low bits length
  | highFirst =>
      rw [collect, List.take_of_length_le (Nat.le_of_eq length), bits_highFirst,
        fromHigh_eq_fromLow_reverse, low _ ((List.length_reverse).trans length),
        List.reverse_reverse]

/-- Words with the same stream are the same. -/
theorem bits_injective (order : StreamOrder) {left right : Word}
    (same : order.bits left = order.bits right) : left = right := by
  rw [← collect_bits order left, same, collect_bits]

/-- What a word becomes on its way between a register and a line of an order:
a line that streams high bits first turns it round. -/
def orient : StreamOrder → Word → Word
  | .highFirst, word => word.reverse
  | .lowFirst, word => word

/-- A word streams as its orientation does from a register. -/
theorem bits_eq_orient (order : StreamOrder) (word : Word) :
    order.bits word = lowFirst.bits (order.orient word) := by
  cases order with
  | lowFirst => rfl
  | highFirst => exact (bits_reverse word).symm

@[simp]
theorem orient_orient (order : StreamOrder) (word : Word) :
    order.orient (order.orient word) = word := by
  cases order with
  | lowFirst => rfl
  | highFirst => exact BitVec.reverse_reverse_eq

/-- What a register streams is read as the register's word in its orientation. -/
theorem collect_lowFirst (order : StreamOrder) (word : Word) :
    order.collect (lowFirst.bits word) = order.orient word := by
  rw [← orient_orient order word, ← bits_eq_orient, collect_bits, orient_orient]

theorem bits_zero (order : StreamOrder) : order.bits 0 = List.replicate 40 false := by
  cases order <;> rfl

end BitSerial.StreamOrder
