import BitSerial.Bank
import BitSerial.Proofs.DelayLine.Pulses
import BitSerial.Proofs.StreamOrder.Words
import Mathlib.Logic.Function.Basic

/-!
# The words of a bank

A bank at rest is known by the words on its tapes and the places of its heads.
Reading and waiting move one head and change no word; writing changes the one
word that it is given.
-/

namespace BitSerial.Bank

open DelayLine

variable {channels words : Nat}

/-- A bank at rest with known words on its tapes. -/
structure Keeps (bank : Bank channels words) (content : Fin channels → Fin words → Word) :
    Prop where
  settled : ∀ channel, (bank.line channel).Settled
  word : ∀ channel word, bank.peekWord channel word = content channel word

/-- Words with one of them exchanged. -/
def exchange (channel : Fin channels) (word : Fin words) (value : Word)
    (content : Fin channels → Fin words → Word) : Fin channels → Fin words → Word :=
  Function.update content channel (Function.update (content channel) word value)

/-! ## One line of a bank -/

@[simp]
theorem line_modifyLine (bank : Bank channels words) (channel : Fin channels)
    (change : DelayLine (words * 40) → DelayLine (words * 40)) :
    (bank.modifyLine channel change).line channel = change (bank.line channel) :=
  line_setLine bank channel _

theorem line_modifyLine_of_ne (bank : Bank channels words) {channel other : Fin channels}
    (apart : other ≠ channel) (change : DelayLine (words * 40) → DelayLine (words * 40)) :
    (bank.modifyLine channel change).line other = bank.line other :=
  line_setLine_of_ne bank apart.symm _

@[simp]
theorem order_modifyLine (bank : Bank channels words) (channel : Fin channels)
    (change : DelayLine (words * 40) → DelayLine (words * 40)) :
    (bank.modifyLine channel change).order = bank.order :=
  rfl

theorem setLine_line (bank : Bank channels words) (channel : Fin channels) :
    bank.setLine channel (bank.line channel) = bank := by
  simp [setLine, Bank.line]

theorem modifyLine_modifyLine (bank : Bank channels words) (channel : Fin channels)
    (first second : DelayLine (words * 40) → DelayLine (words * 40)) :
    (bank.modifyLine channel first).modifyLine channel second =
      bank.modifyLine channel (second ∘ first) := by
  rw [modifyLine, line_modifyLine]
  simp [modifyLine, setLine]

theorem position_lt (bank : Bank channels words) (channel : Fin channels) :
    bank.position channel < words * 40 :=
  (bank.line channel).head.isLt

/-- The last bit of a word is on the line as well as its first. -/
theorem word_mul_add_le (word : Fin words) : word.val * 40 + 40 ≤ words * 40 := by
  have inside := word.isLt
  omega

/-- From any place the wait for another leads there. -/
theorem add_wait_mod {position revolution : Nat} (inside : position < revolution)
    (target : Nat) :
    (position + (target + revolution - position) % revolution) % revolution =
      target % revolution := by
  rw [Nat.add_mod_mod, show position + (target + revolution - position) =
    target + revolution by omega, Nat.add_mod_right]

/-- A word is where its address says, wherever the head is. -/
theorem peekWord_eq_segment (bank : Bank channels words) (channel : Fin channels)
    (word : Fin words) :
    bank.peekWord channel word =
      bank.order.collect ((bank.line channel).segment (word * 40) 40) := by
  have inside := bank.position_lt channel
  rw [peekWord, DelayLine.segment]
  congr 1
  apply List.map_congr_left
  intro place _
  rw [peek_eq_cell]
  apply cell_congr
  rw [← Nat.add_assoc, ← Nat.mod_add_mod]
  show ((bank.position channel + _) % _ + place) % _ = _
  rw [add_wait_mod inside, Nat.mod_add_mod]

/-! ## Waiting -/

/-- Counting words and counting cells come to the same wait. -/
theorem waitFor_eq (bank : Bank channels words) (channel : Fin channels) (word : Fin words) :
    bank.waitFor channel word =
      (word * 40 + words * 40 - bank.position channel) % (words * 40) := by
  have inside := bank.position_lt channel
  rw [waitFor]
  split
  · rename_i aligned
    have current : bank.position channel / 40 < words := by omega
    have distance : (word.val + words - bank.position channel / 40) * 40 =
        word * 40 + words * 40 - bank.position channel := by omega
    rw [Rotation.waitPulses, Rotation.waitWords, Rotation.stretch, Nat.mod_eq_of_lt word.isLt,
      Nat.mod_eq_of_lt current, ← Nat.mul_mod_mul_right, distance]
  · rfl

/-- After the wait the word is at the head. -/
theorem position_add_waitFor (bank : Bank channels words) (channel : Fin channels)
    (word : Fin words) :
    (bank.position channel + bank.waitFor channel word) % (words * 40) = word * 40 := by
  have wordInside := word_mul_add_le word
  rw [waitFor_eq, add_wait_mod (bank.position_lt channel), Nat.mod_eq_of_lt (by omega)]

/-- Aligning brings a word's first bit to the head. -/
theorem head_align (bank : Bank channels words) (channel : Fin channels) (word : Fin words) :
    ((bank.align channel word).line channel).head.val = word * 40 := by
  rw [align, line_modifyLine, head_advance]
  exact bank.position_add_waitFor channel word

/-! ## Turning -/

variable {bank : Bank channels words} {content : Fin channels → Fin words → Word}

theorem Keeps.modifyLine {channel : Fin channels} {value : Fin words → Word}
    {change : DelayLine (words * 40) → DelayLine (words * 40)} (keeps : bank.Keeps content)
    (settled : (change (bank.line channel)).Settled)
    (stream : ∀ word : Fin words,
      (change (bank.line channel)).segment (word * 40) 40 = bank.order.bits (value word)) :
    (bank.modifyLine channel change).Keeps (Function.update content channel value) := by
  constructor
  · intro other
    by_cases same : other = channel
    · subst same
      rw [line_modifyLine]
      exact settled
    · rw [line_modifyLine_of_ne bank same]
      exact keeps.settled other
  · intro other word
    by_cases same : other = channel
    · subst same
      rw [peekWord_eq_segment, line_modifyLine, order_modifyLine, stream word,
        StreamOrder.collect_bits, Function.update_self]
    · rw [peekWord_eq_segment, line_modifyLine_of_ne bank same, order_modifyLine,
        ← peekWord_eq_segment, Function.update_of_ne same]
      exact keeps.word other word

/-- The bits of a word stand on the tape in the bank's order. -/
theorem Keeps.stream (keeps : bank.Keeps content) (channel : Fin channels) (word : Fin words) :
    (bank.line channel).segment (word * 40) 40 = bank.order.bits (content channel word) := by
  rw [← keeps.word channel word, peekWord_eq_segment, StreamOrder.bits_collect _ (by simp)]

/-- A bit on the tape belongs to the word that its place is in. -/
theorem Keeps.cell (keeps : bank.Keeps content) (channel : Fin channels) {place : Nat}
    (inside : place / 40 < words) :
    (bank.line channel).cell place =
      (content channel ⟨place / 40, inside⟩).getLsbD (bank.order.index (place % 40)) := by
  have offset : place % 40 < 40 := Nat.mod_lt place (by decide)
  have stream := keeps.stream channel ⟨place / 40, inside⟩
  have bit := congrArg (fun bits => bits[place % 40]?) stream
  simpa [offset, Nat.div_add_mod'] using bit

/-- Turning a channel moves no word. -/
theorem Keeps.advance (keeps : bank.Keeps content) (channel : Fin channels) (count : Nat) :
    (bank.modifyLine channel (DelayLine.advance count)).Keeps content := by
  have kept : Function.update content channel (content channel) = content :=
    Function.update_eq_self channel content
  rw [← kept]
  apply keeps.modifyLine ((keeps.settled channel).advance count)
  intro word
  rw [segment_advance (keeps.settled channel), keeps.stream]

theorem Keeps.align (keeps : bank.Keeps content) (channel : Fin channels) (word : Fin words) :
    (bank.align channel word).Keeps content :=
  keeps.advance channel _

theorem modifyLine_advance (bank : Bank channels words) (channel : Fin channels)
    (first second : Nat) :
    (bank.modifyLine channel (DelayLine.advance first)).modifyLine channel
        (DelayLine.advance second) =
      bank.modifyLine channel (DelayLine.advance (first + second)) := by
  rw [modifyLine_modifyLine]
  apply congrArg (bank.modifyLine channel)
  funext line
  rw [Function.comp_apply, advance_add]

/-- Reading gives the word and turns its channel past it. -/
theorem Keeps.readWord (keeps : bank.Keeps content) (channel : Fin channels) (word : Fin words) :
    bank.readWord channel word =
      (content channel word,
        bank.modifyLine channel (DelayLine.advance (bank.waitFor channel word + 40))) := by
  have inside := word_mul_add_le word
  have aligned := keeps.align channel word
  have turned : (bank.align channel word).modifyLine channel (DelayLine.advance 40) =
      bank.modifyLine channel (DelayLine.advance (bank.waitFor channel word + 40)) :=
    modifyLine_advance bank channel _ _
  rw [Bank.readWord, emit_eq _ (by omega)]
  dsimp only
  rw [DelayLine.take_bits _ (by omega), head_align, aligned.stream, StreamOrder.collect_bits,
    ← turned]
  rfl

/-! ## Writing -/

/-- Writing at the head of a line exchanges the word there. -/
theorem segment_writeAll_word {line : DelayLine (words * 40)} {word : Fin words} {bits : List Bit}
    (head : line.head.val = word * 40) (length : bits.length = 40) (other : Fin words) :
    (line.writeAll bits).segment (other * 40) 40 =
      if other = word then bits else line.segment (other * 40) 40 := by
  have inside := word_mul_add_le word
  have otherInside := word_mul_add_le other
  split
  · rename_i same
    have short : bits.length ≤ words * 40 := by omega
    have written := segment_writeAll line short
    rwa [head, length, ← same] at written
  · rename_i apart
    apply List.map_congr_left
    intro offset member
    have offsetInside : offset < 40 := by simpa using member
    apply cell_writeAll_of_outside
    intro place placeInside
    have apartVal : other.val ≠ word.val := fun same => apart (Fin.ext same)
    rw [head, Nat.mod_eq_of_lt (by omega), Nat.mod_eq_of_lt (by omega)]
    omega

/-- Writing exchanges one word and turns its channel past it. -/
theorem Keeps.writeWord (keeps : bank.Keeps content) (channel : Fin channels) (word : Fin words)
    (value : Word) :
    (bank.writeWord channel word value).Keeps (exchange channel word value content) := by
  have aligned := keeps.align channel word
  apply aligned.modifyLine ((aligned.settled channel).writeAll _)
  intro other
  rw [segment_writeAll_word (bank.head_align channel word) (StreamOrder.length_bits _ _) other]
  by_cases same : other = word
  · subst same
    rw [if_pos rfl, Function.update_self]
    rfl
  · rw [if_neg same, Function.update_of_ne same, aligned.stream]

/-! ## Positions -/

theorem position_modifyLine_of_ne (bank : Bank channels words) {channel other : Fin channels}
    (apart : other ≠ channel) (change : DelayLine (words * 40) → DelayLine (words * 40)) :
    (bank.modifyLine channel change).position other = bank.position other := by
  rw [position, line_modifyLine_of_ne bank apart, position]

theorem position_advance (bank : Bank channels words) (channel : Fin channels) (count : Nat) :
    (bank.modifyLine channel (DelayLine.advance count)).position channel =
      (bank.position channel + count) % (words * 40) := by
  rw [position, line_modifyLine, head_advance, position]

theorem position_align (bank : Bank channels words) (channel : Fin channels) (word : Fin words) :
    (bank.align channel word).position channel = word * 40 :=
  bank.head_align channel word

theorem position_writeWord (bank : Bank channels words) (channel : Fin channels)
    (word : Fin words) (value : Word) :
    (bank.writeWord channel word value).position channel = (word * 40 + 40) % (words * 40) := by
  rw [writeWord, position, line_modifyLine, head_writeAll, head_align, StreamOrder.length_bits]

/-- Writing turns the heads as far as reading does. -/
theorem position_writeWord_eq (bank : Bank channels words) (channel other : Fin channels)
    (word : Fin words) (value : Word) :
    (bank.writeWord channel word value).position other =
      (bank.modifyLine channel (DelayLine.advance (bank.waitFor channel word + 40))).position
        other := by
  by_cases same : other = channel
  · subst same
    rw [position_writeWord, position_advance, ← bank.position_add_waitFor other word,
      Nat.mod_add_mod, Nat.add_assoc]
  · rw [writeWord, position_modifyLine_of_ne _ same, align, position_modifyLine_of_ne _ same,
      position_modifyLine_of_ne _ same]

theorem position_readWord (bank : Bank channels words) (channel : Fin channels)
    (word : Fin words) :
    (bank.readWord channel word).2.position channel = (word * 40 + 40) % (words * 40) := by
  have inside := word_mul_add_le word
  rw [readWord, emit_eq _ (by omega)]
  dsimp only
  rw [position, line_setLine, head_advance, head_align]

/-- Behind a word a channel stands between two words, and its clock shows the next one. -/
theorem clock_of_behind {channel : Fin channels} {word : Nat}
    (behind : bank.position channel = (word * 40 + 40) % (words * 40)) :
    bank.position channel % 40 = 0 ∧ bank.clock channel = Rotation.clockAfter word words := by
  have whole : (word * 40 + 40) % (words * 40) = (word + 1) % words * 40 := by
    rw [← Nat.succ_mul, Nat.mul_mod_mul_right]
  rw [whole] at behind
  rw [Bank.clock, behind, Rotation.clockAfter]
  exact ⟨Nat.mul_mod_left _ 40, Nat.mul_div_cancel _ (by decide)⟩

/-! ## Cleared banks -/

theorem keeps_of_clear (settled : ∀ channel, (bank.line channel).Settled)
    (clear : ∀ channel, (bank.line channel).tape = Vector.replicate (words * 40) false) :
    bank.Keeps fun _ _ => 0 := by
  refine ⟨settled, ?_⟩
  intro channel word
  rw [peekWord_eq_segment, segment_of_clear (clear channel), ← StreamOrder.bits_zero bank.order,
    StreamOrder.collect_bits]

theorem line_blank (name : String) (order : StreamOrder) (positive : 0 < words)
    (channel : Fin channels) (fits : 0 < words * 40) :
    (blank name order positive : Bank channels words).line channel = DelayLine.blank fits := by
  simp [blank, Bank.line]

theorem position_blank (name : String) (order : StreamOrder) (positive : 0 < words)
    (channel : Fin channels) :
    (blank name order positive : Bank channels words).position channel = 0 := by
  rw [position, line_blank name order positive channel (Nat.mul_pos positive (by decide))]
  rfl

theorem keeps_blank (name : String) (order : StreamOrder) (positive : 0 < words) :
    (blank name order positive : Bank channels words).Keeps fun _ _ => 0 := by
  have fits : 0 < words * 40 := Nat.mul_pos positive (by decide)
  apply keeps_of_clear
  · intro channel
    rw [line_blank name order positive channel fits]
    exact ⟨rfl, rfl⟩
  · intro channel
    rw [line_blank name order positive channel fits]
    rfl

theorem line_reset (bank : Bank channels words) (channel : Fin channels) :
    bank.reset.line channel = (bank.line channel).reset.setRefresh true := by
  simp [reset, Bank.line]

theorem position_reset (bank : Bank channels words) (channel : Fin channels) :
    bank.reset.position channel = 0 := by
  rw [position, line_reset]
  rfl

/-- Whatever was on a bank, pending or switched off, a reset clears it. -/
theorem keeps_reset (bank : Bank channels words) : bank.reset.Keeps fun _ _ => 0 := by
  apply keeps_of_clear
  · intro channel
    rw [line_reset]
    exact ⟨rfl, rfl⟩
  · intro channel
    rw [line_reset]
    rfl

end BitSerial.Bank
