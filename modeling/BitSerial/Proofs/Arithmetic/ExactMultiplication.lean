import BitSerial.Proofs.Arithmetic.Multiplication
import BitSerial.Proofs.Arithmetic.Timing

/-!
# Exact multiplication

A multiplication turns every line whole rounds: A goes round once for the bits of B it
uses up, and every partial product is a round of A and S besides.  So from registers in
phase it makes registers in phase, at the same places on their loops, and neither what S
held nor what was waiting to be injected leaves a trace.
-/

namespace BitSerial.Arithmetic

open DelayLine

/-! ## Where the heads come to stand -/

theorem head_ripple (count : Nat) (carry : Bit) (sum addend : DelayLine 40) :
    (ripple count carry sum addend).1.head.val = (sum.head + count) % 40 ∧
      (ripple count carry sum addend).2.head.val = (addend.head + count) % 40 := by
  induction count generalizing carry sum addend with
  | zero =>
      exact ⟨(Nat.mod_eq_of_lt sum.head.isLt).symm, (Nat.mod_eq_of_lt addend.head.isLt).symm⟩
  | succ count ih =>
      rw [ripple]
      obtain ⟨first, second⟩ :=
        ih (Bit.fullAdd sum.front addend.front carry).2
          (sum.write (Bit.fullAdd sum.front addend.front carry).1) addend.pulse
      rw [head_write, val_next] at first
      rw [head_pulse, val_next] at second
      exact ⟨by omega, by omega⟩

/-- A partial product is one round of both lines, however many bits it has room for. -/
theorem head_addPartial {count : Nat} (few : count ≤ 40) (a s : DelayLine 40) :
    (addPartial count a s).1.head = a.head ∧ (addPartial count a s).2.head = s.head := by
  obtain ⟨first, second⟩ := head_ripple count false a s
  rw [addPartial]
  dsimp only
  constructor
  · apply Fin.ext
    rw [head_advance, first]
    omega
  · apply Fin.ext
    rw [head_advance, second]
    omega

/-- Every bit of B that is used up moves A and B on by one cell, and S by none. -/
theorem head_multiplyRest {rounds : Nat} (few : rounds ≤ 40) (ticks : Nat)
    (a b s : DelayLine 40) :
    (multiplyRest rounds ticks a b s).result.a.head.val = (a.head + rounds) % 40 ∧
      (multiplyRest rounds ticks a b s).result.b.head.val = (b.head + rounds) % 40 ∧
      (multiplyRest rounds ticks a b s).result.s.head = s.head := by
  induction rounds generalizing ticks a b s with
  | zero =>
      exact ⟨(Nat.mod_eq_of_lt a.head.isLt).symm, (Nat.mod_eq_of_lt b.head.isLt).symm, rfl⟩
  | succ rounds ih =>
      have rest := ih (Nat.le_of_succ_le few)
      obtain ⟨sumPlace, scratchPlace⟩ := head_addPartial few a s
      rw [multiplyRest]
      cases b.front with
      | false =>
          rw [if_neg Bool.false_ne_true]
          obtain ⟨first, second, third⟩ := rest (ticks + 1) a.pulse (b.write false) s
          rw [head_pulse, val_next] at first
          rw [head_write, val_next] at second
          exact ⟨by omega, by omega, third⟩
      | true =>
          rw [if_pos rfl]
          generalize addPartial (rounds + 1) a s = added at sumPlace scratchPlace ⊢
          rcases added with ⟨sum, scratch⟩
          dsimp only at sumPlace scratchPlace ⊢
          obtain ⟨first, second, third⟩ := rest (ticks + 41) sum.pulse (b.write false) scratch
          rw [head_pulse, val_next, sumPlace] at first
          rw [head_write, val_next] at second
          exact ⟨by omega, by omega, third.trans scratchPlace⟩

theorem head_multiply (registers : Registers) (name : RegisterName) :
    ((multiply registers).result.get name).head = (registers.get name).head := by
  have moved := move_eq registers.s registers.a (Nat.le_refl 40)
  obtain ⟨first, second, third⟩ := head_multiplyRest (Nat.le_refl 40) 40
    (registers.a.writeAll (List.replicate 40 false)) registers.b
    (registers.s.writeAll (registers.a.bits.take 40))
  rw [multiply, moved]
  cases name with
  | a =>
      apply Fin.ext
      rw [head_writeAll, List.length_replicate] at first
      refine first.trans ?_
      show _ = registers.a.head.val
      omega
  | b =>
      apply Fin.ext
      refine second.trans ?_
      show _ = registers.b.head.val
      omega
  | s =>
      apply Fin.ext
      refine (congrArg Fin.val third).trans ?_
      rw [head_writeAll, List.length_take, length_bits]
      show _ = registers.s.head.val
      omega

/-! ## The product -/

/-- Multiplication is exact modulo 2^40.  It takes eighty pulses and forty for every one
in the multiplier; then all lines are at rest in phase, with the product in A, zero in B
and the multiplicand in S. -/
theorem multiply_exact {registers : Registers}
    (refresh : ∀ name, (registers.get name).refresh = true) :
    (multiply registers).ticks = 80 + 40 * (registers.peek .b).cpop.toNat ∧
      (multiply registers).result.Hold
        (BitVec.ofNat 40 ((registers.peek .a).toNat * (registers.peek .b).toNat)) 0
        (registers.peek .a) ∧
      ∀ name, ((multiply registers).result.get name).head = (registers.get name).head := by
  obtain ⟨-, hold⟩ :=
    multiply_spec (carries_peek (refresh .a)) (carries_peek (refresh .b)) (refresh .s)
  have product : BitVec.ofNat 40 ((registers.peek .a).toNat * (registers.peek .b).toNat) =
      registers.peek .a * registers.peek .b := by
    apply BitVec.eq_of_toNat_eq
    rw [BitVec.toNat_ofNat, BitVec.toNat_mul]
  rw [product]
  exact ⟨ticks_multiply registers, hold, head_multiply registers⟩

/-- Six times 121, with a bit waiting on every line and S full of ones. -/
theorem multiply_exact_pending :
    ∃ registers : Registers, (∀ name, (registers.get name).refresh = true) ∧
      (∀ name, (registers.get name).pending = some true) ∧
      (multiply registers).ticks = 280 ∧ (multiply registers).result.Hold 726 0 6 ∧
      ∀ name, ((multiply registers).result.get name).head = (registers.get name).head := by
  let line (word : Word) : DelayLine 40 :=
    ((blank (by decide)).writeAll (StreamOrder.lowFirst.bits word)).schedule true
  let registers : Registers := ⟨line 6, line 121, line (BitVec.allOnes 40)⟩
  have refresh : ∀ name, (registers.get name).refresh = true := by
    rintro (_ | _ | _) <;> rfl
  have multiplicand : registers.peek .a = 6 := by decide +kernel
  have multiplier : registers.peek .b = 121 := by decide +kernel
  obtain ⟨ticks, hold, heads⟩ := multiply_exact refresh
  rw [multiplier] at ticks
  rw [multiplicand, multiplier] at hold
  refine ⟨registers, refresh, ?_, ticks, hold, heads⟩
  rintro (_ | _ | _) <;> rfl

end BitSerial.Arithmetic
