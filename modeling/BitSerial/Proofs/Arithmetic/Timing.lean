import BitSerial.Arithmetic
import BitSerial.Proofs.DelayLine.Pulses
import BitSerial.Proofs.StreamOrder.Words

/-!
# What operations on registers take

How many pulses an operation takes is known before its registers are, but for a
multiplication, which takes another forty for every one in B.  Nothing is assumed of
the lines: they may wait to inject a bit, and they need not refresh.
-/

namespace BitSerial

namespace StreamOrder

/-- The ones of a word's lowest bits, counted from the last on. -/
theorem count_range_eq_cpopNatRec (word : Word) (count : Nat) :
    ((List.range count).map word.getLsbD).count true = word.cpopNatRec count 0 := by
  induction count with
  | zero => rfl
  | succ count ih =>
      rw [List.range_succ, List.map_append, List.count_append, ih, BitVec.cpopNatRec_succ,
        BitVec.cpopNatRec_add, List.map_singleton]
      cases word.getLsbD count <;> rfl

/-- A word streams as many ones as it has. -/
theorem count_bits_lowFirst (word : Word) :
    (lowFirst.bits word).count true = word.cpop.toNat := by
  have few : word.cpopNatRec 40 0 < 2 ^ 40 :=
    Nat.lt_of_le_of_lt (BitVec.cpopNatRec_zero_le word 40) (by decide)
  rw [BitVec.cpop, BitVec.toNat_ofNat, Nat.mod_eq_of_lt few]
  exact count_range_eq_cpopNatRec word 40

end StreamOrder

/-- A register's cells hold as many ones as the word that is read off them. -/
theorem Registers.count_bits (registers : Registers) (name : RegisterName) :
    (registers.get name).bits.count true = (registers.peek name).cpop.toNat := by
  have stream := StreamOrder.bits_collect .lowFirst (registers.get name).length_bits
  rw [← StreamOrder.count_bits_lowFirst, Registers.peek, stream]

namespace Arithmetic

variable (registers : Registers)

theorem ticks_add : (add registers).ticks = 40 :=
  rfl

theorem ticks_addAfter (count ticks : Nat) :
    (addAfter count ticks registers).ticks = ticks + 40 * count := by
  induction count generalizing ticks registers with
  | zero => rfl
  | succ count ih =>
      rw [addAfter, ih, ticks_add]
      omega

theorem ticks_multiplyAdd (count : Nat) : (multiplyAdd count registers).ticks = 40 * count := by
  rw [multiplyAdd, ticks_addAfter, Nat.zero_add]

theorem ticks_negate : (negate registers).ticks = 80 :=
  rfl

theorem ticks_shiftLeft : (shiftLeft registers).ticks = 1 :=
  rfl

theorem ticks_shiftRight : (shiftRight registers).ticks = 80 :=
  rfl

theorem ticks_logic (operation : Bit → Bit → Bit) : (logic operation registers).ticks = 40 :=
  rfl

theorem ticks_round (count : Nat) : (round count registers).ticks = 40 :=
  rfl

theorem ticks_scan : (scan registers).ticks = 40 :=
  rfl

/-- Every round takes one pulse, and another forty if the bit of B that it uses is a
one.  What a round writes into B comes behind the bits that are left. -/
theorem ticks_multiplyRest {rounds : Nat} (few : rounds ≤ 40) (ticks : Nat)
    (a b s : DelayLine 40) :
    (multiplyRest rounds ticks a b s).ticks =
      ticks + rounds + 40 * (b.bits.take rounds).count true := by
  induction rounds generalizing ticks a b s with
  | zero => rfl
  | succ rounds ih =>
      have left : ((b.write false).bits.take rounds) = b.bits.tail.take rounds :=
        b.take_bits_write false few
      rw [multiplyRest, b.take_bits_succ, List.count_cons]
      cases b.front with
      | false =>
          rw [if_neg Bool.false_ne_true, ih (Nat.le_of_succ_le few), left]
          simp
          omega
      | true =>
          rw [if_pos rfl]
          generalize addPartial (rounds + 1) a s = sum
          rw [ih (Nat.le_of_succ_le few), left]
          simp
          omega

theorem ticks_multiply :
    (multiply registers).ticks = 80 + 40 * (registers.peek .b).cpop.toNat := by
  have ones : registers.b.bits.count true = (registers.peek .b).cpop.toNat :=
    registers.count_bits .b
  have whole : registers.b.bits.take 40 = registers.b.bits :=
    List.take_of_length_le (Nat.le_of_eq registers.b.length_bits)
  rw [multiply]
  generalize DelayLine.move 40 registers.s registers.a = moved
  dsimp only
  rw [ticks_multiplyRest (Nat.le_refl 40), whole, ones]

end Arithmetic

end BitSerial
