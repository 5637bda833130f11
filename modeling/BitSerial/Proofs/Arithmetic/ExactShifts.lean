import BitSerial.Proofs.Arithmetic.Words
import Mathlib.Logic.Function.Iterate

/-!
# Exact shifts

Toward the head A is shifted by a single pulse, away from it by way of S and back.  Both
keep all registers at rest and in phase, so they may follow each other in any number:
shifts one way and back cut a word's high or low bits off, and cutting off the low ones is
rounding.
-/

namespace BitSerial.Arithmetic

open DelayLine
open Registers
open StreamOrder

variable {registers : Registers} {a b s : Word}

/-- The registers after an operation has been done a number of times over. -/
def times (count : Nat) (operation : Registers → Timed Registers) : Registers → Registers :=
  (Timed.result ∘ operation)^[count]

theorem times_succ (count : Nat) (operation : Registers → Timed Registers)
    (registers : Registers) :
    times (count + 1) operation registers = times count operation (operation registers).result :=
  rfl

/-! ## Shifts over and over -/

theorem hold_times_shiftLeft (count : Nat) (hold : registers.Hold a b s) :
    (times count shiftLeft registers).Hold (a >>> count) b s := by
  induction count generalizing registers a with
  | zero =>
      rw [BitVec.ushiftRight_zero]
      exact hold
  | succ count ih =>
      rw [times_succ, Nat.add_comm, BitVec.shiftRight_add]
      exact ih (hold_shiftLeft hold)

/-- Every shift leaves in S what it has found in A. -/
theorem hold_times_shiftRight (count : Nat) (hold : registers.Hold a b s) :
    ∃ scratch, (times count shiftRight registers).Hold (a <<< count) b scratch := by
  induction count generalizing registers a s with
  | zero =>
      rw [BitVec.shiftLeft_zero]
      exact ⟨s, hold⟩
  | succ count ih =>
      rw [times_succ, Nat.add_comm, BitVec.shiftLeft_add]
      exact ih (hold_shiftRight hold)

/-! ## There and back -/

/-- Bits that were shifted out at the top do not come back. -/
theorem shiftLeft_ushiftRight (word : Word) {count : Nat} (short : count ≤ 40) :
    word <<< count >>> count = BitVec.ofNat 40 (word.toNat % 2 ^ (40 - count)) := by
  have split : 2 ^ 40 = 2 ^ (40 - count) * 2 ^ count := by
    rw [← Nat.pow_add, Nat.sub_add_cancel short]
  have low : word.toNat % 2 ^ (40 - count) < 2 ^ 40 :=
    Nat.lt_of_le_of_lt (Nat.mod_le _ _) word.isLt
  apply BitVec.eq_of_toNat_eq
  rw [BitVec.toNat_ushiftRight, BitVec.toNat_shiftLeft, BitVec.toNat_ofNat,
    Nat.mod_eq_of_lt low, Nat.shiftLeft_eq, Nat.shiftRight_eq_div_pow, split,
    Nat.mul_mod_mul_right, Nat.mul_div_cancel _ (Nat.two_pow_pos count)]

/-- Bits that were shifted out at the bottom come back as zeros. -/
theorem getLsbD_ushiftRight_shiftLeft (word : Word) (count : Nat) {place : Nat}
    (inside : place < 40) :
    (word >>> count <<< count).getLsbD place = (decide (count ≤ place) && word.getLsbD place) := by
  rw [BitVec.getLsbD_shiftLeft, BitVec.getLsbD_ushiftRight]
  by_cases kept : count ≤ place
  · simp [inside, kept, Nat.not_lt_of_le kept, Nat.add_sub_cancel' kept]
  · simp [kept, Nat.lt_of_not_le kept]

/-- Shifts toward the head after as many away from it. -/
theorem hold_shiftLeft_shiftRight {count : Nat} (short : count ≤ 40) (hold : registers.Hold a b s) :
    ∃ scratch, (times count shiftLeft (times count shiftRight registers)).Hold
      (BitVec.ofNat 40 (a.toNat % 2 ^ (40 - count))) b scratch := by
  obtain ⟨scratch, away⟩ := hold_times_shiftRight count hold
  rw [← shiftLeft_ushiftRight a short]
  exact ⟨scratch, hold_times_shiftLeft count away⟩

/-- Shifts away from the head after as many toward it. -/
theorem hold_shiftRight_shiftLeft (count : Nat) (hold : registers.Hold a b s) :
    ∃ scratch, (times count shiftRight (times count shiftLeft registers)).Hold
      (a >>> count <<< count) b scratch :=
  hold_times_shiftRight count (hold_times_shiftLeft count hold)

/-- The two shifts are exact and keep every register in phase.  Toward the head A is
halved in one pulse; away from it A is doubled modulo 2^40 in eighty, with A's word left in
S.  As many shifts toward the head as away from it before leave A without its high bits;
the other way round they clear the low ones, as rounding does. -/
theorem shifts_exact {registers : Registers} (rest : registers.AtRest) :
    let a := registers.peek .a
    let b := registers.peek .b
    let s := registers.peek .s
    ((shiftLeft registers).ticks = 1 ∧ (shiftLeft registers).result.Hold (a >>> 1) b s ∧
        (shiftLeft registers).result.b = registers.b ∧
        (shiftLeft registers).result.s = registers.s) ∧
      ((shiftRight registers).ticks = 80 ∧
        (shiftRight registers).result.Hold (BitVec.ofNat 40 (2 * a.toNat)) b a ∧
        (shiftRight registers).result.b = registers.b ∧
        ∀ name, ((shiftRight registers).result.get name).head = (registers.get name).head) ∧
      ∀ count ≤ 40,
        (∃ scratch, (times count shiftLeft (times count shiftRight registers)).Hold
          (BitVec.ofNat 40 (a.toNat % 2 ^ (40 - count))) b scratch) ∧
        ∃ rounded scratch,
          (∀ place < 40,
            rounded.getLsbD place = (decide (count ≤ place) && a.getLsbD place)) ∧
          (times count shiftRight (times count shiftLeft registers)).Hold rounded b scratch ∧
          (round count registers).result.Hold rounded b s := by
  intro a b s
  have hold : registers.Hold a b s := hold_peek rest
  have doubled : BitVec.ofNat 40 (2 * a.toNat) = a <<< 1 := by
    apply BitVec.eq_of_toNat_eq
    rw [BitVec.toNat_ofNat, BitVec.toNat_shiftLeft, Nat.shiftLeft_eq, Nat.mul_comm]
  refine ⟨⟨rfl, hold_shiftLeft hold, rfl, rfl⟩, ⟨rfl, ?away, ?addend, ?phase⟩, ?thereAndBack⟩
  case away =>
    rw [doubled]
    exact hold_shiftRight hold
  case addend => rw [shiftRight_eq hold, poke_s, poke_a]
  case phase =>
    intro name
    rw [shiftRight_eq hold, head_poke, head_poke]
  case thereAndBack =>
    intro count short
    obtain ⟨scratch, cleared⟩ := hold_shiftRight_shiftLeft count hold
    have rounded := hold_round count hold
    rw [Nat.min_eq_left short] at rounded
    exact ⟨hold_shiftLeft_shiftRight short hold, a >>> count <<< count, scratch,
      fun place inside => getLsbD_ushiftRight_shiftLeft a count inside, cleared, rounded⟩

/-- A word with its top bit set loses that bit one way and its lowest bit the other. -/
theorem shifts_exact_topBit :
    ∃ registers : Registers, registers.AtRest ∧ registers.peek .a = 0x8000000005 ∧
      (shiftLeft registers).result.peek .a = 0x4000000002 ∧
      (shiftRight registers).result.peek .a = 10 ∧
      (shiftRight registers).result.peek .s = 0x8000000005 ∧
      (times 2 shiftLeft (times 2 shiftRight registers)).peek .a = 5 ∧
      (times 2 shiftRight (times 2 shiftLeft registers)).peek .a =
        (round 2 registers).result.peek .a := by
  obtain ⟨registers, rest, word⟩ :
      ∃ registers : Registers, registers.AtRest ∧ registers.peek .a = 0x8000000005 :=
    ⟨blank.poke .a _, AtRest.blank.poke .a _, peek_poke blank .a _⟩
  have halved : (0x8000000005 : Word) >>> 1 = 0x4000000002 := by decide
  have doubled : BitVec.ofNat 40 (2 * (0x8000000005 : Word).toNat) = 10 := by decide
  have low : BitVec.ofNat 40 ((0x8000000005 : Word).toNat % 2 ^ (40 - 2)) = 5 := by decide
  obtain ⟨⟨-, toward, -⟩, ⟨-, away, -⟩, thereAndBack⟩ := shifts_exact rest
  obtain ⟨⟨_, cut⟩, value, _, -, cleared, rounded⟩ := thereAndBack 2 (by decide)
  have back : (times 2 shiftRight (times 2 shiftLeft registers)).peek .a = value :=
    cleared.peek .a
  have once : (round 2 registers).result.peek .a = value := rounded.peek .a
  rw [word, halved] at toward
  rw [word, doubled] at away
  rw [word, low] at cut
  exact ⟨registers, rest, word, toward.peek .a, away.peek .a, away.peek .s, cut.peek .a,
    back.trans once.symm⟩

end BitSerial.Arithmetic
