import BitSerial.Proofs.Arithmetic.Words

/-!
# Exact addition and negation

On registers at rest, adding, adding over and over and negating are pokes of the sum and
of the negated word.  So they keep every register in phase, and what one of them does to a
register the opposite one undoes to the last cell.
-/

namespace BitSerial.Arithmetic

open DelayLine
open Registers
open StreamOrder

variable {registers : Registers}

/-- A sum is written bit by bit, so it does not depend on what was waiting to be injected
into A, nor on whether A refreshes itself. -/
theorem add_of_flags (registers : Registers) (pending : Option Bit) (refresh : Bool) :
    (add (registers.set .a { registers.a with pending, refresh })).result =
      (add registers).result.set .a ((add registers).result.a.setRefresh refresh) := by
  rcases registers with ⟨a, b, s⟩
  have written : sumStream false (a.bits.take 40) (b.bits.take 40) ≠ [] :=
    List.ne_nil_of_length_pos (by simp)
  show (add ⟨{ a with pending, refresh }, b, s⟩).result = _
  rw [add, ripple_eq false _ _ (Nat.le_refl 40), add, ripple_eq false _ _ (Nat.le_refl 40)]
  exact congrArg (fun line : DelayLine 40 => Registers.mk line (b.advance 40) s)
    (writeAll_of_flags written a pending refresh)

theorem negate_negate (rest : registers.AtRest) :
    (negate (negate registers).result).result = registers := by
  have hold := hold_peek rest
  have own : registers.poke .b (registers.peek .b) = registers := poke_peek (rest .b)
  rw [negate_eq hold]
  dsimp only
  rw [negate_eq (hold.pokeB _), poke_poke, BitVec.neg_neg, own]

/-- Adding the negated word as often undoes the sums. -/
theorem multiplyAdd_negate_multiplyAdd (rest : registers.AtRest) (count : Nat) :
    (multiplyAdd count (negate (multiplyAdd count registers).result).result).result =
      (negate registers).result := by
  have hold := hold_peek rest
  have own : registers.poke .a (registers.peek .a) = registers := poke_peek (rest .a)
  have sum := hold.pokeA (registers.peek .a + BitVec.ofNat 40 count * registers.peek .b)
  have cancelled : registers.peek .a + BitVec.ofNat 40 count * registers.peek .b +
      BitVec.ofNat 40 count * -registers.peek .b = registers.peek .a := by
    rw [BitVec.mul_neg, ← BitVec.sub_eq_add_neg, BitVec.add_sub_cancel]
  rw [multiplyAdd_eq count hold, negate_eq hold]
  dsimp only
  rw [negate_eq sum]
  dsimp only
  rw [multiplyAdd_eq count (sum.pokeB _), cancelled]
  dsimp only
  rw [poke_comm _ (by decide), poke_poke, own]

theorem add_mul_peek (registers : Registers) (count : Nat) :
    registers.peek .a + BitVec.ofNat 40 count * registers.peek .b =
      BitVec.ofNat 40 ((registers.peek .a).toNat + count * (registers.peek .b).toNat) := by
  rw [BitVec.ofNat_add, BitVec.ofNat_mul, BitVec.ofNat_toNat, BitVec.ofNat_toNat]
  simp

/-- Serial addition and negation are exact modulo 2^40.  Adding a number of times over
takes forty pulses for each, and adding is doing it once; negating takes eighty.  Only the
result's register changes, and every register ends at rest and in phase.  So negating twice
changes nothing, and sums are undone by as many with B negated.  What one addition makes of
A does not depend on what was pending there or on A's switch. -/
theorem addition_exact {registers : Registers} (rest : registers.AtRest) (count : Nat) :
    ((multiplyAdd count registers).ticks = 40 * count ∧
        Overwritten .a
          (BitVec.ofNat 40 ((registers.peek .a).toNat + count * (registers.peek .b).toNat))
          registers (multiplyAdd count registers).result) ∧
      add registers = multiplyAdd 1 registers ∧
      ((negate registers).ticks = 80 ∧
        Overwritten .b (-registers.peek .b) registers (negate registers).result) ∧
      (negate (negate registers).result).result = registers ∧
      (multiplyAdd count (negate (multiplyAdd count registers).result).result).result.a =
        registers.a ∧
      ∀ pending refresh,
        (add (registers.set .a { registers.a with pending, refresh })).result =
          (add registers).result.set .a ((add registers).result.a.setRefresh refresh) := by
  have hold := hold_peek rest
  refine ⟨⟨?sumTicks, ?sum⟩, rfl, ⟨rfl, ?negated⟩, negate_negate rest, ?undone,
    add_of_flags registers⟩
  case sumTicks => rw [multiplyAdd_eq count hold]
  case sum =>
    rw [multiplyAdd_eq count hold, add_mul_peek]
    exact rest.overwritten .a _
  case negated =>
    rw [negate_eq hold]
    exact rest.overwritten .b _
  case undone =>
    rw [multiplyAdd_negate_multiplyAdd rest, negate_eq hold, poke_b]

/-- Three sevens added to minus one, past the largest word. -/
theorem addition_exact_wrapping :
    let registers := (blank.poke .a (-1)).poke .b 7
    registers.AtRest ∧ (multiplyAdd 3 registers).ticks = 120 ∧
      (multiplyAdd 3 registers).result.peek .a = 20 ∧
      (negate registers).result.peek .b = -7 ∧
      (multiplyAdd 3 (negate (multiplyAdd 3 registers).result).result).result.peek .a = -1 := by
  intro registers
  have rest : registers.AtRest := (AtRest.blank.poke .a (-1)).poke .b 7
  have addend : registers.peek .b = 7 := peek_poke _ _ _
  have sum : registers.peek .a = -1 := by
    rw [peek_poke_of_ne _ (by decide), peek_poke]
  obtain ⟨⟨ticks, added⟩, -, ⟨-, negated⟩, -, undone, -⟩ := addition_exact rest 3
  refine ⟨rest, ticks, ?_, ?_, ?_⟩
  · rw [added.word, sum, addend]
    decide
  · rw [negated.word, addend]
  · rw [← sum]
    exact congrArg (fun line : DelayLine 40 => lowFirst.collect line.bits) undone

end BitSerial.Arithmetic
