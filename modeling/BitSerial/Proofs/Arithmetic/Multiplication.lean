import BitSerial.Proofs.Arithmetic.Words

/-!
# Serial multiplication

In the middle of a multiplication A is out of phase: it has turned by one cell
for every bit of B used up, so the product's finished low bits stand behind its
high ones.  That turn is what makes each partial product count twice the one
before.  The state in the middle is an invariant; one round leads from it to
itself with one more bit finished.
-/

namespace BitSerial.Arithmetic

open DelayLine
open StreamOrder

/-- A multiplication by so many bits that are left.  `low` are the finished bits
of the product, `high` those that partial products are still added to. -/
structure Multiplying (multiplicand : Word) (low high left : List Bit)
    (a b s : DelayLine 40) : Prop where
  a_settled : a.Settled
  a_bits : a.bits = high ++ low
  b_bits : b.bits = left ++ List.replicate low.length false
  b_refresh : b.refresh = true
  /-- A bit may be pending on B until the first round. -/
  b_pending : left = [] → b.pending = none
  s_holds : s.Holds multiplicand
  high_length : high.length = left.length
  low_length : low.length + left.length = 40

/-- The number that a multiplication in the middle will come to. -/
def finished (multiplicand : Word) (low high left : List Bit) : Nat :=
  fromLow (low ++ high) + 2 ^ low.length * (multiplicand.toNat * fromLow left)

variable {multiplicand : Word} {low high left : List Bit} {a b s : DelayLine 40}

/-- The high bits with the multiplicand added, as far as it has room. -/
def partialSum (multiplicand : Word) (high : List Bit) : List Bit :=
  sumStream false high ((lowFirst.bits multiplicand).take high.length)

@[simp]
theorem length_partialSum (short : high.length ≤ 40) :
    (partialSum multiplicand high).length = high.length := by
  rw [partialSum, length_sumStream, List.length_take, StreamOrder.length_bits,
    Nat.min_eq_left short, Nat.min_self]

theorem fromLow_partialSum (short : high.length ≤ 40) :
    fromLow (partialSum multiplicand high) ≡ fromLow high + multiplicand.toNat
      [MOD 2 ^ high.length] := by
  have shortBits : high.length ≤ (lowFirst.bits multiplicand).length := by simpa using short
  have sameLength : high.length = ((lowFirst.bits multiplicand).take high.length).length := by
    rw [List.length_take, Nat.min_eq_left shortBits]
  rw [partialSum, fromLow_sumStream false sameLength, fromLow_take _ shortBits, fromLow_bits,
    Bool.toNat_false, Nat.add_zero]
  exact (Nat.mod_modEq _ _).trans ((Nat.mod_modEq _ _).add_left _)

/-- Adding S from A's present bit on adds it to the high bits, and brings both
lines back to where they were. -/
theorem addPartial_bits (settled : a.Settled) (bits : a.bits = high ++ low)
    (whole : low.length + high.length = 40) (holds : s.Holds multiplicand) :
    (addPartial high.length a s).1.Settled ∧
      (addPartial high.length a s).1.bits = partialSum multiplicand high ++ low ∧
      (addPartial high.length a s).2 = s := by
  have short : high.length ≤ 40 := by omega
  have first : a.bits.take high.length = high := by rw [bits, List.take_left' rfl]
  have last : a.bits.drop high.length = low := by rw [bits, List.drop_left' rfl]
  have written : (a.writeAll (partialSum multiplicand high)).bits =
      low ++ partialSum multiplicand high := by
    rw [bits_writeAll _ (by rw [length_partialSum short]; exact short), length_partialSum short,
      last]
  have settledWritten := settled.writeAll (partialSum multiplicand high)
  have rest : 40 - high.length = low.length := by omega
  have turned : (s.advance high.length).advance low.length = s := by
    rw [← advance_add, Nat.add_comm, whole, holds.advance]
  rw [addPartial, ripple_eq false a s short, first, holds.bits, rest]
  dsimp only
  rw [← partialSum, turned, bits_advance settledWritten (by omega), written, List.drop_left' rfl,
    List.take_left' rfl]
  exact ⟨settledWritten.advance _, rfl, rfl⟩

/-- What one bit of B makes of A and S. -/
def afterBit (bit : Bit) (count : Nat) (a s : DelayLine 40) : DelayLine 40 × DelayLine 40 :=
  if bit then addPartial count a s else (a, s)

/-- What one bit of B makes of the high bits. -/
def highAfter (multiplicand : Word) (bit : Bit) (high : List Bit) : List Bit :=
  if bit then partialSum multiplicand high else high

theorem length_highAfter (multiplicand : Word) (bit : Bit) (short : high.length ≤ 40) :
    (highAfter multiplicand bit high).length = high.length := by
  cases bit with
  | false => rfl
  | true => exact length_partialSum short

theorem fromLow_highAfter (multiplicand : Word) (bit : Bit) (short : high.length ≤ 40) :
    fromLow (highAfter multiplicand bit high) ≡
      fromLow high + multiplicand.toNat * bit.toNat [MOD 2 ^ high.length] := by
  cases bit with
  | false => rfl
  | true => simpa [highAfter] using fromLow_partialSum short

/-- One bit of B adds to the high bits and leaves the low ones and S alone. -/
theorem Multiplying.afterBit_bits {bit : Bit}
    (multiplying : Multiplying multiplicand low high (bit :: left) a b s) :
    (afterBit bit (left.length + 1) a s).1.Settled ∧
      (afterBit bit (left.length + 1) a s).1.bits = highAfter multiplicand bit high ++ low ∧
      (afterBit bit (left.length + 1) a s).2 = s := by
  cases bit with
  | false => exact ⟨multiplying.a_settled, multiplying.a_bits, rfl⟩
  | true =>
      have whole : low.length + high.length = 40 := by
        rw [multiplying.high_length]
        exact multiplying.low_length
      have count : left.length + 1 = high.length := multiplying.high_length.symm
      rw [count]
      exact addPartial_bits multiplying.a_settled multiplying.a_bits whole multiplying.s_holds

/-- While a bit of B is left there is a high bit to finish. -/
theorem Multiplying.exists_cons {bit : Bit}
    (multiplying : Multiplying multiplicand low high (bit :: left) a b s) :
    ∃ first rest, highAfter multiplicand bit high = first :: rest := by
  have highLength := multiplying.high_length
  have lowLength := multiplying.low_length
  rw [List.length_cons] at highLength lowLength
  apply List.exists_cons_of_length_pos
  rw [length_highAfter multiplicand bit (by omega)]
  omega

/-- One round of a multiplication finishes one bit. -/
theorem Multiplying.round {bit first : Bit} {rest : List Bit}
    (multiplying : Multiplying multiplicand low high (bit :: left) a b s)
    (added : highAfter multiplicand bit high = first :: rest) :
    Multiplying multiplicand (low ++ [first]) rest left
      (afterBit bit (left.length + 1) a s).1.pulse (b.write false)
      (afterBit bit (left.length + 1) a s).2 := by
  obtain ⟨settled, bits, scratch⟩ := multiplying.afterBit_bits
  have highLength := multiplying.high_length
  have lowLength := multiplying.low_length
  rw [List.length_cons] at highLength lowLength
  have short : high.length ≤ 40 := by omega
  have restLength := length_highAfter multiplicand bit short
  rw [added, List.length_cons] at restLength
  constructor
  · exact ⟨rfl, settled.refresh⟩
  · have front := front_eq_of_bits_eq_cons (bits.trans (congrArg (· ++ low) added))
    rw [bits_pulse, injected_of_settled settled, front, bits, added]
    simp
  · rw [bits_write, multiplying.b_bits, List.length_append, List.length_singleton,
      List.replicate_succ']
    simp
  · exact multiplying.b_refresh
  · exact fun _ => rfl
  · rw [scratch]
    exact multiplying.s_holds
  · omega
  · rw [List.length_append, List.length_singleton]
    omega

/-- A round does not change what a multiplication will come to. -/
theorem finished_round {bit first : Bit} {rest : List Bit}
    (whole : low.length + high.length = 40)
    (added : highAfter multiplicand bit high = first :: rest) :
    finished multiplicand (low ++ [first]) rest left ≡
      finished multiplicand low high (bit :: left) [MOD 2 ^ 40] := by
  have short : high.length ≤ 40 := by omega
  have sum := fromLow_highAfter multiplicand bit short
  have scaled := sum.mul_left' (2 ^ low.length)
  rw [← Nat.pow_add, whole] at scaled
  have values : finished multiplicand (low ++ [first]) rest left =
      fromLow low + 2 ^ low.length * fromLow (highAfter multiplicand bit high) +
        2 ^ low.length * (multiplicand.toNat * (2 * fromLow left)) := by
    rw [finished, List.append_assoc, List.singleton_append, ← added, fromLow_append,
      List.length_append, List.length_singleton]
    ring
  have target : finished multiplicand low high (bit :: left) =
      fromLow low + 2 ^ low.length * (fromLow high + multiplicand.toNat * bit.toNat) +
        2 ^ low.length * (multiplicand.toNat * (2 * fromLow left)) := by
    rw [finished, fromLow_append, fromLow_cons]
    ring
  rw [values, target]
  exact (scaled.add_left _).add_right _

theorem ofNat_finished_round {bit first : Bit} {rest : List Bit}
    (whole : low.length + high.length = 40)
    (added : highAfter multiplicand bit high = first :: rest) :
    BitVec.ofNat 40 (finished multiplicand (low ++ [first]) rest left) =
      BitVec.ofNat 40 (finished multiplicand low high (bit :: left)) := by
  apply BitVec.eq_of_toNat_eq
  rw [BitVec.toNat_ofNat, BitVec.toNat_ofNat]
  exact finished_round whole added

/-- With no bit of B left the product is in A, in phase again. -/
theorem Multiplying.hold (multiplying : Multiplying multiplicand low high [] a b s) :
    (Registers.mk a b s).Hold (BitVec.ofNat 40 (finished multiplicand low high [])) 0
      multiplicand := by
  have highNil : high = [] := List.length_eq_zero_iff.mp multiplying.high_length
  have lowLength : low.length = 40 := multiplying.low_length
  have bounded := fromLow_lt low
  rw [lowLength] at bounded
  refine ⟨⟨⟨?_, multiplying.a_settled.refresh⟩, multiplying.a_settled.pending⟩,
    ⟨⟨?_, multiplying.b_refresh⟩, multiplying.b_pending rfl⟩, multiplying.s_holds⟩
  · show a.bits = _
    rw [multiplying.a_bits, highNil, List.nil_append]
    apply eq_bits_of_fromLow lowLength
    rw [BitVec.toNat_ofNat, finished, List.append_nil, fromLow_nil, Nat.mul_zero, Nat.mul_zero,
      Nat.add_zero, Nat.mod_eq_of_lt bounded]
  · show b.bits = _
    rw [multiplying.b_bits, List.nil_append, lowLength, bits_zero]

/-- The rounds that are left finish the product. -/
theorem multiplyRest_spec (ticks : Nat)
    (multiplying : Multiplying multiplicand low high left a b s) :
    (multiplyRest left.length ticks a b s).ticks =
        ticks + left.length + 40 * left.count true ∧
      (multiplyRest left.length ticks a b s).result.Hold
        (BitVec.ofNat 40 (finished multiplicand low high left)) 0 multiplicand := by
  induction left generalizing ticks low high a b s with
  | nil => exact ⟨rfl, multiplying.hold⟩
  | cons bit left ih =>
      have front : b.front = bit := front_eq_of_bits_eq_cons multiplying.b_bits
      obtain ⟨first, rest, added⟩ := multiplying.exists_cons
      have whole : low.length + high.length = 40 := by
        rw [multiplying.high_length]
        exact multiplying.low_length
      have next := multiplying.round added
      rw [← ofNat_finished_round whole added]
      cases bit with
      | false =>
          have done := ih (ticks + 1) next
          rw [List.length_cons, multiplyRest, front, if_neg Bool.false_ne_true]
          refine ⟨done.1.trans ?_, done.2⟩
          simp
          omega
      | true =>
          have done := ih (ticks + 41) next
          rw [List.length_cons, multiplyRest, front, if_pos rfl]
          refine ⟨done.1.trans ?_, done.2⟩
          simp
          omega

/-- Multiplication is exact modulo 2^40, whatever S held and whatever was
pending; its time depends on the ones in B alone. -/
theorem multiply_spec {registers : Registers} {x y : Word} (a : registers.a.Carries x)
    (b : registers.b.Carries y) (s : registers.s.refresh = true) :
    (multiply registers).ticks = 80 + 40 * (lowFirst.bits y).count true ∧
      (multiply registers).result.Hold (x * y) 0 x := by
  have cleared := writeAll_holds a.refresh 0
  rw [bits_zero] at cleared
  have multiplying : Multiplying x [] (List.replicate 40 false) (lowFirst.bits y)
      (registers.a.writeAll (List.replicate 40 false)) registers.b
      (registers.s.writeAll (lowFirst.bits x)) := {
    a_settled := cleared.settled
    a_bits := by rw [cleared.bits, bits_zero, List.append_nil]
    b_bits := by rw [b.bits, List.length_nil, List.replicate_zero, List.append_nil]
    b_refresh := b.refresh
    b_pending := fun empty => absurd empty (List.ne_nil_of_length_pos (by simp))
    s_holds := writeAll_holds s x
    high_length := by simp
    low_length := by simp }
  have done := multiplyRest_spec 40 multiplying
  have product : BitVec.ofNat 40 (finished x [] (List.replicate 40 false) (lowFirst.bits y)) =
      x * y := by
    apply BitVec.eq_of_toNat_eq
    rw [finished, List.nil_append, fromLow_replicate_false, fromLow_bits, BitVec.toNat_mul,
      BitVec.toNat_ofNat]
    simp
  rw [product, StreamOrder.length_bits] at done
  have unfolded : multiply registers = multiplyRest 40 40
      (registers.a.writeAll (List.replicate 40 false)) registers.b
      (registers.s.writeAll (lowFirst.bits x)) := by
    rw [multiply, move_eq _ _ (Nat.le_refl 40), a.take_bits]
  rw [unfolded]
  exact done

end BitSerial.Arithmetic
