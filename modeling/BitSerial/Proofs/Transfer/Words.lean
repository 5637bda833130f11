import BitSerial.Proofs.Arithmetic.Words
import BitSerial.Proofs.Bank.Words
import BitSerial.Transfer

/-!
# Transfers of words

A transfer is a bank's own reading or writing of a word with a register at the
other end.  What arrives is the word's stream, so between a register and a line
that streams high bits first a word is turned round.
-/

namespace BitSerial.Transfer

open DelayLine
open StreamOrder

variable {channels words : Nat}

/-! ## Transfers as reads and writes -/

theorem store_eq (channel : Fin channels) (word : Fin words) (register : DelayLine 40)
    (bank : Bank channels words) :
    store channel word register bank =
      ⟨bank.waitFor channel word + 40, register.advance 40,
        bank.writeWord channel word (bank.order.collect register.bits)⟩ := by
  have stream := bits_collect bank.order register.length_bits
  rw [store, copy_eq _ _ (Nat.le_refl 40),
    List.take_of_length_le (Nat.le_of_eq register.length_bits),
    Bank.writeWord, stream]
  rfl

theorem storeClearing_eq (channel : Fin channels) (word : Fin words) (register : DelayLine 40)
    (bank : Bank channels words) :
    storeClearing channel word register bank =
      ⟨bank.waitFor channel word + 40, register.writeAll (List.replicate 40 false),
        bank.writeWord channel word (bank.order.collect register.bits)⟩ := by
  have stream := bits_collect bank.order register.length_bits
  rw [storeClearing, move_eq _ _ (Nat.le_refl 40),
    List.take_of_length_le (Nat.le_of_eq register.length_bits), Bank.writeWord, stream]
  rfl

/-- With refresh on before and after, the switch makes no difference to a copy. -/
theorem storeProgram_eq (channel : Fin channels) (word : Fin words) (register : DelayLine 40)
    {bank : Bank channels words} (settled : (bank.line channel).Settled) :
    storeProgram channel word register bank = store channel word register bank := by
  have aligned : ((bank.align channel word).line channel).refresh = true := by
    rw [Bank.align, Bank.line_modifyLine]
    exact (settled.advance _).refresh
  have written (bits : List Bit) :
      ((((bank.align channel word).line channel).setRefresh false).writeAll bits).setRefresh true =
        ((bank.align channel word).line channel).writeAll bits := by
    rw [writeAll_setRefresh]
    exact setRefresh_of_refresh ((refresh_writeAll _ _).trans aligned)
  rw [storeProgram, store, copy_eq _ _ (Nat.le_refl 40), copy_eq _ _ (Nat.le_refl 40)]
  dsimp only
  rw [written]

theorem length_take_word (line : DelayLine (words * 40)) (word : Fin words) :
    (line.bits.take 40).length = 40 := by
  have inside := Bank.word_mul_add_le word
  rw [List.length_take, line.length_bits]
  omega

theorem load_eq (channel : Fin channels) (word : Fin words) (register : DelayLine 40)
    (bank : Bank channels words) :
    load channel word register bank =
      ⟨bank.waitFor channel word + 40,
        register.writeAll (bank.order.bits (bank.readWord channel word).1),
        (bank.readWord channel word).2⟩ := by
  have short : 40 ≤ words * 40 := by
    have inside := Bank.word_mul_add_le word
    omega
  have stream := bits_collect bank.order
    (length_take_word ((bank.align channel word).line channel) word)
  rw [load, copy_eq _ _ short, Bank.readWord, emit_eq _ short]
  dsimp only
  rw [show (bank.align channel word).order = bank.order from rfl, stream]

theorem rippleMasked_eq (carry : Bit) (sum mask addend : DelayLine 40) {count : Nat}
    (short : count ≤ 40) :
    rippleMasked count carry sum mask addend =
      (sum.writeAll (Arithmetic.sumStream carry (sum.bits.take count)
          (List.zipWith and (addend.bits.take count) (mask.bits.take count))),
        mask.advance count, addend.advance count) := by
  induction count generalizing carry sum mask addend with
  | zero => rfl
  | succ count ih =>
      rw [rippleMasked, ih _ _ _ _ (Nat.le_of_succ_le short), take_bits_write _ _ short,
        take_bits_pulse _ short, take_bits_pulse _ short, take_bits_succ sum, take_bits_succ mask,
        take_bits_succ addend]
      rfl

/-- A transfer leaves its channel's head behind the word, as reading and writing
do. -/
theorem position_store (channel : Fin channels) (word : Fin words) (register : DelayLine 40)
    (bank : Bank channels words) :
    (store channel word register bank).result.2.position channel =
      (word * 40 + 40) % (words * 40) := by
  rw [store_eq]
  exact bank.position_writeWord channel word _

theorem position_load (channel : Fin channels) (word : Fin words) (register : DelayLine 40)
    (bank : Bank channels words) :
    (load channel word register bank).result.2.position channel =
      (word * 40 + 40) % (words * 40) := by
  rw [load_eq]
  exact bank.position_readWord channel word

theorem position_storeProgram (channel : Fin channels) (word : Fin words)
    (register : DelayLine 40) (bank : Bank channels words) :
    (storeProgram channel word register bank).result.2.position channel =
      (word * 40 + 40) % (words * 40) := by
  have copied := copy_eq (((bank.align channel word).line channel).setRefresh false)
    register (Nat.le_refl 40)
  rw [storeProgram, copied]
  dsimp only
  rw [Bank.position, Bank.line_setLine]
  show (writeAll _ _).head.val = _
  rw [head_writeAll, List.take_of_length_le (Nat.le_of_eq register.length_bits),
    register.length_bits]
  exact congrArg (fun head => (head + 40) % (words * 40)) (bank.head_align channel word)

/-! ## What a transfer leaves alone -/

@[simp]
theorem order_store (channel : Fin channels) (word : Fin words) (register : DelayLine 40)
    (bank : Bank channels words) :
    (store channel word register bank).result.2.order = bank.order := by
  rw [store_eq]
  rfl

@[simp]
theorem order_storeClearing (channel : Fin channels) (word : Fin words) (register : DelayLine 40)
    (bank : Bank channels words) :
    (storeClearing channel word register bank).result.2.order = bank.order := by
  rw [storeClearing_eq]
  rfl

@[simp]
theorem order_load (channel : Fin channels) (word : Fin words) (register : DelayLine 40)
    (bank : Bank channels words) :
    (load channel word register bank).result.2.order = bank.order := by
  rw [load_eq]
  rfl

@[simp]
theorem order_collate (channel : Fin channels) (word : Fin words) (registers : Registers)
    (bank : Bank channels words) :
    (collate channel word registers bank).result.2.order = bank.order :=
  rfl

/-! ## Transfers of known words -/

variable {bank : Bank channels words} {content : Fin channels → Fin words → Word}
  {register : DelayLine 40} {value : Word}

/-- Storing puts the register's word into the bank and leaves the register as it
is. -/
theorem store_of_keeps (keeps : bank.Keeps content) (holds : register.Holds value)
    (channel : Fin channels) (word : Fin words) :
    (store channel word register bank).result.1 = register ∧
      (store channel word register bank).result.2.Keeps
        (Bank.exchange channel word (bank.order.orient value) content) := by
  rw [store_eq, holds.bits, collect_lowFirst]
  exact ⟨holds.advance, keeps.writeWord channel word _⟩

theorem storeClearing_of_keeps (keeps : bank.Keeps content) (holds : register.Holds value)
    (channel : Fin channels) (word : Fin words) :
    (storeClearing channel word register bank).result.1.Holds 0 ∧
      (storeClearing channel word register bank).result.2.Keeps
        (Bank.exchange channel word (bank.order.orient value) content) := by
  have cleared := writeAll_holds holds.refresh 0
  rw [bits_zero] at cleared
  rw [storeClearing_eq, holds.bits, collect_lowFirst]
  exact ⟨cleared, keeps.writeWord channel word _⟩

/-- Loading puts the bank's word into the register and moves no word of the
bank. -/
theorem load_of_keeps (keeps : bank.Keeps content) (refresh : register.refresh = true)
    (channel : Fin channels) (word : Fin words) :
    (load channel word register bank).result.1.Holds (bank.order.orient (content channel word)) ∧
      (load channel word register bank).result.2.Keeps content := by
  rw [load_eq, keeps.readWord, bits_eq_orient]
  exact ⟨writeAll_holds refresh _, keeps.advance channel _⟩

/-- Collating is poking the bank's word into S and then the sum into A. -/
theorem collate_eq {registers : Registers} {a b s : Word} (keeps : bank.Keeps content)
    (hold : registers.Hold a b s) (channel : Fin channels) (word : Fin words) :
    collate channel word registers bank =
      ⟨bank.waitFor channel word + 80,
        (registers.poke .s (bank.order.orient (content channel word))).poke .a
          (a + (bank.order.orient (content channel word) &&& b)),
        (bank.readWord channel word).2⟩ := by
  -- the first turn is a load into S, in which A and B come round
  have filled : (load channel word registers.s bank).result =
      (registers.s.writeAll (lowFirst.bits (bank.order.orient (content channel word))),
        (bank.readWord channel word).2) := by
    rw [load_eq, keeps.readWord, bits_eq_orient]
  have scratch := writeAll_holds hold.s.refresh (bank.order.orient (content channel word))
  have masked : List.zipWith and (lowFirst.bits (bank.order.orient (content channel word)))
      (lowFirst.bits b) = lowFirst.bits (bank.order.orient (content channel word) &&& b) := by
    apply Arithmetic.zipWith_bits
    intro place _
    exact BitVec.getLsbD_and
  rw [collate]
  dsimp only
  rw [show (DelayLine.copy 40 registers.s ((bank.align channel word).line channel)).2 =
      (load channel word registers.s bank).result.1 from rfl,
    show (bank.align channel word).setLine channel
        (DelayLine.copy 40 registers.s ((bank.align channel word).line channel)).1 =
      (load channel word registers.s bank).result.2 from rfl, filled]
  dsimp only
  rw [hold.a.advance, hold.b.advance, rippleMasked_eq _ _ _ _ (Nat.le_refl 40),
    hold.a.take_bits, hold.b.take_bits, scratch.take_bits, masked, Arithmetic.sumStream_bits,
    scratch.advance, hold.b.advance, Registers.poke_s, Registers.poke_a]

/-- Collating adds to A the bits that B shares with the bank's word, which is left
in S. -/
theorem collate_of_keeps {registers : Registers} {a b s : Word} (keeps : bank.Keeps content)
    (hold : registers.Hold a b s) (channel : Fin channels) (word : Fin words) :
    (collate channel word registers bank).result.1.Hold
        (a + (bank.order.orient (content channel word) &&& b)) b
        (bank.order.orient (content channel word)) ∧
      (collate channel word registers bank).result.2.Keeps content := by
  rw [collate_eq keeps hold, keeps.readWord]
  exact ⟨(hold.pokeS _).pokeA _, keeps.advance channel _⟩

end BitSerial.Transfer
