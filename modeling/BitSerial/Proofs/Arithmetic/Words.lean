import BitSerial.Proofs.Arithmetic.Streams
import BitSerial.Proofs.Registers.Overwriting
import Mathlib.Data.Nat.ModEq
import Mathlib.Tactic.Ring

/-!
# Registers that hold words

Between instructions a register's head is at bit 0 of its word.  From registers
that hold words every operation makes registers that hold words again: the sum,
the product, the shifted word and so on, whatever order of pulses the lines went
through on the way.
-/

namespace BitSerial

open StreamOrder

namespace DelayLine

/-- A register line with the head at bit 0 of a word.  A bit may be pending. -/
structure Carries (line : DelayLine 40) (word : Word) : Prop where
  bits : line.bits = lowFirst.bits word
  refresh : line.refresh = true

/-- A register line at rest with the head at bit 0 of a word. -/
structure Holds (line : DelayLine 40) (word : Word) : Prop extends Carries line word where
  pending : line.pending = none

namespace Holds

variable {line : DelayLine 40} {word : Word}

theorem settled (holds : line.Holds word) : line.Settled :=
  ⟨holds.pending, holds.refresh⟩

/-- A full turn leaves a register as it is. -/
theorem advance (holds : line.Holds word) : line.advance 40 = line :=
  advance_length holds.settled

theorem take_bits (holds : line.Holds word) : line.bits.take 40 = lowFirst.bits word := by
  rw [holds.bits, List.take_of_length_le (by simp)]

end Holds

theorem Carries.take_bits {line : DelayLine 40} {word : Word} (carries : line.Carries word) :
    line.bits.take 40 = lowFirst.bits word := by
  rw [carries.bits, List.take_of_length_le (by simp)]

/-- Writing a word's stream over a register puts the word there. -/
theorem writeAll_holds {line : DelayLine 40} (refresh : line.refresh = true) (word : Word) :
    (line.writeAll (lowFirst.bits word)).Holds word where
  bits := bits_writeAll_length line (StreamOrder.length_bits lowFirst word)
  refresh := (refresh_writeAll _ line).trans refresh
  pending := pending_writeAll (List.ne_nil_of_length_pos (by simp)) line

theorem blank_holds : (blank (by decide) : DelayLine 40).Holds 0 where
  bits := rfl
  refresh := rfl
  pending := rfl

/-- Whatever was on a register, pending or switched off, a reset clears it. -/
theorem reset_holds (line : DelayLine 40) : (line.reset.setRefresh true).Holds 0 where
  bits := by
    rw [bits_eq_segment, segment_of_clear rfl, bits_zero]
  refresh := rfl
  pending := rfl

end DelayLine

namespace Registers

/-- Registers at rest with words in them. -/
structure Hold (registers : Registers) (a b s : Word) : Prop where
  a : registers.a.Holds a
  b : registers.b.Holds b
  s : registers.s.Holds s

/-- The word in a register of which the words are known. -/
def word (a b s : Word) : RegisterName → Word
  | .a => a
  | .b => b
  | .s => s

variable {registers : Registers} {a b s : Word}

theorem Hold.get (hold : registers.Hold a b s) (name : RegisterName) :
    (registers.get name).Holds (word a b s name) := by
  cases name with
  | a => exact hold.a
  | b => exact hold.b
  | s => exact hold.s

theorem Hold.peek (hold : registers.Hold a b s) (name : RegisterName) :
    registers.peek name = word a b s name := by
  rw [Registers.peek, (hold.get name).bits, collect_bits]

theorem Hold.setA (hold : registers.Hold a b s) {line : DelayLine 40} {value : Word}
    (holds : line.Holds value) : (registers.set .a line).Hold value b s :=
  ⟨holds, hold.b, hold.s⟩

theorem Hold.setB (hold : registers.Hold a b s) {line : DelayLine 40} {value : Word}
    (holds : line.Holds value) : (registers.set .b line).Hold a value s :=
  ⟨hold.a, holds, hold.s⟩

theorem Hold.setS (hold : registers.Hold a b s) {line : DelayLine 40} {value : Word}
    (holds : line.Holds value) : (registers.set .s line).Hold a b value :=
  ⟨hold.a, hold.b, holds⟩

theorem hold_blank : blank.Hold 0 0 0 :=
  ⟨DelayLine.blank_holds, DelayLine.blank_holds, DelayLine.blank_holds⟩

theorem hold_reset (registers : Registers) : registers.reset.Hold 0 0 0 :=
  ⟨DelayLine.reset_holds _, DelayLine.reset_holds _, DelayLine.reset_holds _⟩

theorem Hold.pokeA (hold : registers.Hold a b s) (value : Word) :
    (registers.poke .a value).Hold value b s :=
  hold.setA (DelayLine.writeAll_holds hold.a.refresh value)

theorem Hold.pokeB (hold : registers.Hold a b s) (value : Word) :
    (registers.poke .b value).Hold a value s :=
  hold.setB (DelayLine.writeAll_holds hold.b.refresh value)

theorem Hold.pokeS (hold : registers.Hold a b s) (value : Word) :
    (registers.poke .s value).Hold a b value :=
  hold.setS (DelayLine.writeAll_holds hold.s.refresh value)

/-- A poked register holds the word; the others keep theirs. -/
theorem Hold.poke (hold : registers.Hold a b s) (name : RegisterName) (value : Word) :
    ∃ a b s, (registers.poke name value).Hold a b s := by
  cases name with
  | a => exact ⟨value, b, s, hold.pokeA value⟩
  | b => exact ⟨a, value, s, hold.pokeB value⟩
  | s => exact ⟨a, b, value, hold.pokeS value⟩

end Registers

namespace Arithmetic

open DelayLine

variable {registers : Registers} {a b s : Word}

/-! ## Words read off the cells -/

theorem carries_peek {name : RegisterName} (refresh : (registers.get name).refresh = true) :
    (registers.get name).Carries (registers.peek name) where
  bits := (registers.bits_peek name).symm
  refresh := refresh

/-- Registers at rest hold the words that are read off them. -/
theorem hold_peek (rest : registers.AtRest) :
    registers.Hold (registers.peek .a) (registers.peek .b) (registers.peek .s) where
  a := ⟨carries_peek (rest .a).refresh, (rest .a).pending⟩
  b := ⟨carries_peek (rest .b).refresh, (rest .b).pending⟩
  s := ⟨carries_peek (rest .s).refresh, (rest .s).pending⟩

/-! ## One pass -/

theorem holds_loadImmediate {line : DelayLine 40} (refresh : line.refresh = true)
    (operand : Operand) :
    (loadImmediate operand .lowFirst line).result.Holds (operand.setWidth 40) :=
  writeAll_holds refresh _

/-- An operand injected high bit first is read as the word turned round. -/
theorem holds_loadImmediate_highFirst {line : DelayLine 40} (refresh : line.refresh = true)
    (operand : Operand) :
    (loadImmediate operand .highFirst line).result.Holds (operand.setWidth 40).reverse := by
  have holds := writeAll_holds refresh (operand.setWidth 40).reverse
  rwa [bits_reverse] at holds

/-- Adding is poking the sum. -/
theorem add_eq (hold : registers.Hold a b s) : add registers = ⟨40, registers.poke .a (a + b)⟩ := by
  rw [add, ripple_eq false _ _ (Nat.le_refl 40), hold.a.take_bits, hold.b.take_bits,
    sumStream_bits, hold.b.advance]
  rfl

theorem hold_add (hold : registers.Hold a b s) : (add registers).result.Hold (a + b) b s := by
  rw [add_eq hold]
  exact hold.pokeA _

/-- Of the sums that are poked one after the other the last one stays. -/
theorem addAfter_eq (count ticks : Nat) (hold : registers.Hold a b s) :
    addAfter count ticks registers =
      ⟨ticks + 40 * count, registers.poke .a (a + BitVec.ofNat 40 count * b)⟩ := by
  induction count generalizing ticks registers a with
  | zero =>
      have same : registers.poke .a a = registers := by
        have own : registers.peek .a = a := hold.peek .a
        rw [← own]
        exact Registers.poke_peek hold.a.settled
      rw [show a + BitVec.ofNat 40 0 * b = a by simp, same]
      rfl
  | succ count ih =>
      have sum : a + BitVec.ofNat 40 (count + 1) * b = a + b + BitVec.ofNat 40 count * b := by
        rw [BitVec.ofNat_add, BitVec.add_mul, BitVec.one_mul, BitVec.add_assoc,
          BitVec.add_comm b]
      have ticksSum : ticks + 40 * (count + 1) = ticks + 40 + 40 * count := by omega
      rw [addAfter, add_eq hold, sum, ticksSum]
      dsimp only
      rw [ih _ (hold.pokeA _), Registers.poke_poke]

theorem multiplyAdd_eq (count : Nat) (hold : registers.Hold a b s) :
    multiplyAdd count registers =
      ⟨40 * count, registers.poke .a (a + BitVec.ofNat 40 count * b)⟩ := by
  rw [multiplyAdd, addAfter_eq count 0 hold, Nat.zero_add]

theorem hold_multiplyAdd (count : Nat) (hold : registers.Hold a b s) :
    (multiplyAdd count registers).result.Hold (a + BitVec.ofNat 40 count * b) b s := by
  rw [multiplyAdd_eq count hold]
  exact hold.pokeA _

/-- Negating is poking the complement and then, over it, the negated word. -/
theorem negate_eq (hold : registers.Hold a b s) :
    negate registers = ⟨80, registers.poke .b (-b)⟩ := by
  have inverted : invert 40 registers.b = registers.b.writeAll (lowFirst.bits (~~~b)) := by
    rw [invert_eq _ (Nat.le_refl 40), hold.b.take_bits, map_not_bits]
  have complement := writeAll_holds hold.b.refresh (~~~b)
  rw [negate, inverted, carryThrough_eq true _ (Nat.le_refl 40), complement.take_bits,
    sumStream_one, ← BitVec.neg_eq_not_add,
    writeAll_writeAll _ (StreamOrder.length_bits _ _) (StreamOrder.length_bits _ _)]
  rfl

theorem hold_negate (hold : registers.Hold a b s) : (negate registers).result.Hold a (-b) s := by
  rw [negate_eq hold]
  exact hold.pokeB _

theorem hold_logic (operation : Bit → Bit → Bit) {result : Word}
    (bitwise : ∀ place < 40, result.getLsbD place =
      operation (a.getLsbD place) (b.getLsbD place))
    (hold : registers.Hold a b s) : (logic operation registers).result.Hold result b s := by
  have combined : logic operation registers =
      ⟨40, ⟨registers.a.writeAll (lowFirst.bits result), registers.b, registers.s⟩⟩ := by
    rw [logic, combine_eq _ _ _ (Nat.le_refl 40), hold.a.take_bits, hold.b.take_bits,
      zipWith_bits operation bitwise, hold.b.advance]
  rw [combined]
  exact ⟨writeAll_holds hold.a.refresh _, hold.b, hold.s⟩

/-! ## Shifts and rounding -/

theorem hold_shiftLeft (hold : registers.Hold a b s) :
    (shiftLeft registers).result.Hold (a >>> 1) b s := by
  refine ⟨⟨⟨?_, hold.a.refresh⟩, rfl⟩, hold.b, hold.s⟩
  show (registers.a.write false).bits = _
  have number : fromLow registers.a.bits = a.toNat := by
    rw [hold.a.bits, fromLow_bits]
  have bounded := Bool.toNat_le registers.a.front
  rw [registers.a.bits_eq_front_cons, fromLow_cons] at number
  apply eq_bits_of_fromLow
  · simp
  · rw [bits_write, fromLow_append, BitVec.toNat_ushiftRight, Nat.shiftRight_eq_div_pow]
    simp only [fromLow_cons, fromLow_nil, Bool.toNat_false]
    omega

/-- The stream of a doubled word is a zero and the word's stream, less its last
bit. -/
theorem bits_double (word : Word) :
    false :: (lowFirst.bits word).take 39 = lowFirst.bits (word <<< 1) := by
  apply eq_bits_of_fromLow
  · simp
  · rw [fromLow_cons, fromLow_take _ (by simp), fromLow_bits, BitVec.toNat_shiftLeft,
      Nat.shiftLeft_eq, Bool.toNat_false]
    omega

/-- Shifting away from the head is poking the doubled word, with the word itself left
in S. -/
theorem shiftRight_eq (hold : registers.Hold a b s) :
    shiftRight registers = ⟨80, (registers.poke .s a).poke .a (a <<< 1)⟩ := by
  have scratch : (registers.s.writeAll (lowFirst.bits a)).Holds a :=
    writeAll_holds hold.s.refresh a
  -- the pulse that S has fallen behind is the last one of its second turn
  have turned : ((registers.s.writeAll (lowFirst.bits a)).advance 39).pulse =
      registers.s.writeAll (lowFirst.bits a) := by
    rw [← advance_succ, scratch.advance]
  have doubled (line : DelayLine 40) :
      ((line.writeAll (List.replicate 40 false)).write false).writeAll ((lowFirst.bits a).take 39) =
        line.writeAll (lowFirst.bits (a <<< 1)) := by
    rw [← writeAll_cons, bits_double,
      writeAll_writeAll _ List.length_replicate (StreamOrder.length_bits _ _)]
  rw [shiftRight, move_eq _ _ (Nat.le_refl 40), hold.a.take_bits]
  dsimp only
  rw [copy_eq _ _ (by decide), scratch.bits]
  dsimp only
  rw [turned, doubled, Registers.poke_s, Registers.poke_a]

theorem hold_shiftRight (hold : registers.Hold a b s) :
    (shiftRight registers).result.Hold (a <<< 1) b a := by
  rw [shiftRight_eq hold]
  exact (hold.pokeS a).pokeA _

/-- The stream of a word without its low bits. -/
theorem bits_clearLow (word : Word) {count : Nat} (short : count ≤ 40) :
    List.replicate count false ++ (lowFirst.bits word).drop count =
      lowFirst.bits (word >>> count <<< count) := by
  have parts := fromLow_append ((lowFirst.bits word).take count) ((lowFirst.bits word).drop count)
  rw [List.take_append_drop, fromLow_take _ (by simpa using short), fromLow_bits, List.length_take,
    StreamOrder.length_bits, Nat.min_eq_left short] at parts
  have whole := Nat.mod_add_div word.toNat (2 ^ count)
  apply eq_bits_of_fromLow
  · simp
    omega
  · have high : 2 ^ count * fromLow ((lowFirst.bits word).drop count) =
        2 ^ count * (word.toNat / 2 ^ count) := by omega
    have bounded : 2 ^ count * (word.toNat / 2 ^ count) < 2 ^ 40 :=
      Nat.lt_of_le_of_lt (Nat.mul_div_le _ _) word.isLt
    rw [fromLow_append, fromLow_replicate_false, List.length_replicate, Nat.zero_add, high,
      BitVec.toNat_shiftLeft, BitVec.toNat_ushiftRight, Nat.shiftRight_eq_div_pow, Nat.shiftLeft_eq,
      Nat.mul_comm, Nat.mod_eq_of_lt (by rwa [Nat.mul_comm])]

theorem hold_round (count : Nat) (hold : registers.Hold a b s) :
    (round count registers).result.Hold (a >>> min count 40 <<< min count 40) b s := by
  have short := Nat.min_le_right count 40
  have written : (registers.a.writeAll (List.replicate (min count 40) false)).Settled :=
    hold.a.settled.writeAll _
  have settled := written.advance (40 - min count 40)
  refine ⟨⟨⟨?_, settled.refresh⟩, settled.pending⟩, hold.b, hold.s⟩
  show ((registers.a.writeAll (List.replicate (min count 40) false)).advance
    (40 - min count 40)).bits = _
  have kept : ((lowFirst.bits a).drop (min count 40)).length = 40 - min count 40 := by
    rw [List.length_drop, StreamOrder.length_bits]
  rw [bits_advance written (by omega), bits_writeAll _ (by simp), hold.a.bits,
    ← bits_clearLow a short, List.length_replicate, List.drop_left' kept, List.take_left' kept]

/-! ## Scanning -/

/-- A scan of a word's stream tells whether the word is zero, its sign and its
value. -/
theorem scan_bits (word : Word) :
    Scan.ofBits (lowFirst.bits word) = ⟨decide (word = 0), word.msb, word.toInt⟩ := by
  have zero : (lowFirst.bits word).all (! ·) = decide (word = 0) := by
    rw [Bool.eq_iff_iff, List.all_eq_true, decide_eq_true_iff]
    constructor
    · intro clear
      apply bits_injective lowFirst
      have all : ∀ bit ∈ lowFirst.bits word, bit = false := by simpa using clear
      rw [List.eq_replicate_of_mem all, StreamOrder.length_bits, bits_zero]
    · rintro rfl bit member
      rw [bits_zero] at member
      rw [List.eq_of_mem_replicate member]
      rfl
  have negative : (lowFirst.bits word).getLastD false = word.msb := by
    rw [List.getLastD_eq_getLast?, List.getLast?_eq_getElem?, StreamOrder.length_bits,
      BitVec.msb_eq_getLsbD_last]
    simp [StreamOrder.bits, index]
  rw [Scan.ofBits, zero, negative, collect_bits]
  rfl

theorem scan_eq (hold : registers.Hold a b s) :
    scan registers = ⟨40, ⟨decide (a = 0), a.msb, a.toInt⟩, registers⟩ := by
  rw [scan, emit_eq _ (Nat.le_refl 40), hold.a.take_bits, hold.a.advance]
  simp only [scan_bits]

end Arithmetic

end BitSerial
