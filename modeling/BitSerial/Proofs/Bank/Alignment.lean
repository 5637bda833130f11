import BitSerial.Bank.Request
import BitSerial.Proofs.Bank.Passing
import BitSerial.Proofs.Transfer.Words
import BitSerial.Transfer.Request
import Mathlib.Order.Bounds.Defs

/-!
# Alignment

Every wait rests on one fact: a channel's position counts its pulses round the line,
whatever is scheduled between them and whether the line refreshes.  So the wait for a word is
the least number of pulses that leads to it, whichever way it is computed, and one word time
later the clock shows the next word.
-/

namespace BitSerial.Bank

open DelayLine

variable {channels words : Nat} {channel : Fin channels} {before after : Bank channels words}

/-- The wait from one place to another is the least number of cells that leads there. -/
theorem isLeast_wait {position target revolution : Nat} (inside : position < revolution)
    (targetInside : target < revolution) :
    IsLeast {count | (position + count) % revolution = target}
      ((target + revolution - position) % revolution) := by
  constructor
  · exact (add_wait_mod inside target).trans (Nat.mod_eq_of_lt targetInside)
  · rintro count rfl
    have wait : ((position + count) % revolution + revolution - position) % revolution =
        count % revolution := by
      rw [Nat.add_sub_assoc inside.le, Nat.mod_add_mod,
        show position + count + (revolution - position) = count + revolution by omega,
        Nat.add_mod_right]
    rw [wait]
    exact Nat.mod_le count revolution

/-! ## Channels under pulses -/

/-- A channel got a number of pulses.  Between them bits may have been scheduled and refresh
switched. -/
inductive Turned (channel : Fin channels) (before : Bank channels words) :
    Nat → Bank channels words → Prop
  | start : Turned channel before 0 before
  | pulse {count : Nat} {after : Bank channels words} (turned : Turned channel before count after) :
      Turned channel before (count + 1) (after.pulse channel)
  | schedule {count : Nat} {after : Bank channels words} (bit : Bit)
      (turned : Turned channel before count after) :
      Turned channel before count (after.modifyLine channel (DelayLine.schedule bit))
  | setRefresh {count : Nat} {after : Bank channels words} (refresh : Bool)
      (turned : Turned channel before count after) :
      Turned channel before count (after.modifyLine channel (DelayLine.setRefresh refresh))

namespace Turned

variable {count : Nat}

/-- The position counts the pulses. -/
theorem position (turned : Turned channel before count after) :
    after.position channel = (before.position channel + count) % (words * 40) := by
  induction turned with
  | start => exact (Nat.mod_eq_of_lt (before.position_lt channel)).symm
  | @pulse count after _ ih =>
      have moved : (after.pulse channel).position channel =
          (after.position channel + 1) % (words * 40) := by
        rw [Bank.pulse, Bank.position, line_modifyLine, head_pulse, val_next, Bank.position]
      rw [moved, ih, Nat.mod_add_mod, Nat.add_assoc]
  | schedule _ _ ih => rwa [Bank.position, line_modifyLine]
  | setRefresh _ _ ih => rwa [Bank.position, line_modifyLine]

/-- Other channels do not notice. -/
theorem line_of_ne (turned : Turned channel before count after) {other : Fin channels}
    (apart : other ≠ channel) : after.line other = before.line other := by
  induction turned with
  | start => rfl
  | pulse _ ih => rw [Bank.pulse, line_modifyLine_of_ne _ apart, ih]
  | schedule _ _ ih => rw [line_modifyLine_of_ne _ apart, ih]
  | setRefresh _ _ ih => rw [line_modifyLine_of_ne _ apart, ih]

theorem iterate (turned : Turned channel before count after) (more : Nat) :
    Turned channel before (count + more) ((Bank.pulse channel)^[more] after) := by
  induction more with
  | zero => exact turned
  | succ more ih =>
      rw [Function.iterate_succ_apply']
      exact ih.pulse

/-- Writing bits is scheduling each of them before a pulse. -/
theorem writeAll (turned : Turned channel before count after) (bits : List Bit) :
    Turned channel before (count + bits.length)
      (after.modifyLine channel (DelayLine.writeAll bits)) := by
  induction bits generalizing count after with
  | nil =>
      have nothing : after.modifyLine channel (DelayLine.writeAll []) = after :=
        setLine_line after channel
      rwa [nothing]
  | cons bit rest ih =>
      -- a bit scheduled and then a pulse are the write of the bit
      have first := (turned.schedule bit).pulse
      rw [Bank.pulse, modifyLine_modifyLine] at first
      have all := ih first
      rwa [modifyLine_modifyLine, Nat.add_assoc, Nat.add_comm 1] at all

end Turned

/-- Pulses one by one are the pulses of an advance. -/
theorem pulse_iterate (channel : Fin channels) (count : Nat) (bank : Bank channels words) :
    (Bank.pulse channel)^[count] bank = bank.modifyLine channel (DelayLine.advance count) := by
  induction count with
  | zero => exact (setLine_line bank channel).symm
  | succ count ih =>
      rw [Function.iterate_succ_apply', ih, pulse, modifyLine_modifyLine]
      apply congrArg (bank.modifyLine channel)
      funext line
      exact (advance_succ count line).symm

/-! ## Word times behind an alignment -/

variable (channel) (word : Fin words)

/-- A word read passes by forty pulses. -/
theorem turned_readWord (bank : Bank channels words) :
    Turned channel (bank.align channel word) 40 (bank.readWord channel word).2 := by
  have inside := word_mul_add_le word
  have passed : (bank.readWord channel word).2 =
      (Bank.pulse channel)^[40] (bank.align channel word) := by
    rw [readWord, emit_eq _ (by omega), pulse_iterate]
    rfl
  rw [passed]
  exact Turned.start.iterate 40

theorem turned_writeWord (bank : Bank channels words) (value : Word) :
    Turned channel (bank.align channel word) 40 (bank.writeWord channel word value) := by
  have aligned : Turned channel (bank.align channel word) 0 (bank.align channel word) := .start
  have written := aligned.writeAll (bank.order.bits value)
  rwa [StreamOrder.length_bits, Nat.zero_add] at written

/-- Refresh is switched around the pulses of a store into the program line, not by them. -/
theorem turned_storeProgram (register : DelayLine 40) (bank : Bank channels words) :
    Turned channel (bank.align channel word) 40
      (Transfer.storeProgram channel word register bank).result.2 := by
  have aligned : Turned channel (bank.align channel word) 0 (bank.align channel word) := .start
  have stored := ((aligned.setRefresh false).writeAll register.bits).setRefresh true
  rw [modifyLine_modifyLine, modifyLine_modifyLine, length_bits, Nat.zero_add] at stored
  rw [Transfer.storeProgram, copy_eq _ _ (Nat.le_refl 40),
    List.take_of_length_le (Nat.le_of_eq register.length_bits)]
  exact stored

/-- Every transfer takes forty pulses of the channel. -/
theorem turned_transfer (bench : Bench channels words) (request : Transfer.Request) :
    Turned channel (bench.bank.align channel word) 40
      (bench.transfer request channel word).result.bank := by
  cases request with
  | store name _ _ clear =>
      cases clear with
      | true =>
          rw [Bench.transfer, Bench.exchange, Transfer.storeClearing_eq]
          exact bench.bank.turned_writeWord channel word _
      | false =>
          rw [Bench.transfer, Bench.exchange, Transfer.store_eq]
          exact bench.bank.turned_writeWord channel word _
  | load name =>
      rw [Bench.transfer, Bench.exchange, Transfer.load_eq]
      exact bench.bank.turned_readWord channel word
  | collate =>
      -- the bank gives its word to S as it would in a load; what follows is among registers
      have passed := bench.bank.turned_readWord channel word
      rw [show (bench.bank.readWord channel word).2 =
        (Transfer.load channel word bench.registers.s bench.bank).result.2 by
          rw [Transfer.load_eq]] at passed
      exact passed
  | storeProgram => exact bench.bank.turned_storeProgram channel word _

/-! ## Alignments -/

variable {channel word}

/-- What a bank has to be like after it waited for a word: the least number of pulses that
brings the word to the head was issued on its channel, and nothing else happened. -/
structure Awaited (channel : Fin channels) (word : Fin words) (before : Bank channels words)
    (wait : Nat) (after : Bank channels words) : Prop where
  pulses : after = (Bank.pulse channel)^[wait] before
  least : IsLeast {count | (before.position channel + count) % (words * 40) = word * 40} wait
  short : wait < words * 40
  clock : after.clock channel = word
  again : after.serve (.align channel word) = (.ok (.count 0), after)
  others : ∀ other, other ≠ channel → after.line other = before.line other
  still : (before.line channel).Settled →
    (after.line channel).tape = (before.line channel).tape ∧
      after.peekWord channel = before.peekWord channel
  passed : ∀ last, Turned channel after 40 last →
    last.clock channel = Rotation.clockAfter word words ∧
      ∀ other, other ≠ channel → last.line other = before.line other

theorem serve_align (bank : Bank channels words) (channel : Fin channels) (word : Fin words) :
    bank.serve (.align channel word) =
      (.ok (.count (bank.waitFor channel word)), bank.align channel word) := by
  rw [serve, onPlace, bank.place?_of_inside channel.isLt word.isLt]

theorem align_eq_iterate (bank : Bank channels words) (channel : Fin channels)
    (word : Fin words) :
    bank.align channel word = (Bank.pulse channel)^[bank.waitFor channel word] bank :=
  (pulse_iterate channel _ bank).symm

/-- A channel that is aligned already waits no more. -/
theorem align_align (bank : Bank channels words) (channel : Fin channels) (word : Fin words) :
    (bank.align channel word).serve (.align channel word) =
      (.ok (.count 0), bank.align channel word) := by
  have none : (bank.align channel word).waitFor channel word = 0 := by
    rw [waitFor_eq, position_align, Nat.add_sub_cancel_left, Nat.mod_self]
  rw [serve_align, align_eq_iterate (bank.align channel word), none]
  rfl

/-- On a line at rest an alignment turns the head and moves no word. -/
theorem still_align (bank : Bank channels words) (word : Fin words)
    (settled : (bank.line channel).Settled) :
    ((bank.align channel word).line channel).tape = (bank.line channel).tape ∧
      (bank.align channel word).peekWord channel = bank.peekWord channel := by
  have turned : (bank.align channel word).line channel =
      (bank.line channel).advance (bank.waitFor channel word) :=
    line_modifyLine bank channel _
  constructor
  · rw [turned, advance_of_settled settled]
  · funext other
    rw [peekWord_eq_segment, peekWord_eq_segment, turned, segment_advance settled]
    rfl

theorem awaited_align (bank : Bank channels words) (channel : Fin channels) (word : Fin words) :
    Awaited channel word bank (bank.waitFor channel word) (bank.align channel word) where
  pulses := bank.align_eq_iterate channel word
  least := by
    have wordInside := word_mul_add_le word
    rw [waitFor_eq]
    exact isLeast_wait (bank.position_lt channel) (by omega)
  short := by
    rw [waitFor_eq]
    exact Nat.mod_lt _ (bank.line channel).head.pos
  clock := by rw [clock, position_align, Nat.mul_div_cancel _ (by decide)]
  again := bank.align_align channel word
  others other apart := line_modifyLine_of_ne bank apart _
  still := bank.still_align word
  passed last turned := by
    have behind := turned.position
    rw [position_align] at behind
    exact ⟨(clock_of_behind behind).2, fun other apart =>
      (turned.line_of_ne apart).trans (line_modifyLine_of_ne bank apart _)⟩

/-- Between words the count of words comes to the wait. -/
theorem waitPulses_of_aligned {bank : Bank channels words}
    (aligned : bank.position channel % 40 = 0) (word : Fin words) :
    Rotation.waitPulses (bank.position channel / 40) word words 40 = bank.waitFor channel word := by
  rw [waitFor, if_pos aligned]

/-- On a bank that memory has room for, the count of words fits its counter. -/
theorem wait?_of_aligned {bank : Bank channels words} (room : words * 40 < cellLimit)
    (aligned : bank.position channel % 40 = 0) (word : Fin words) :
    ∃ passing, Rotation.wait? (bank.position channel / 40) word words 40 =
      some ⟨passing, bank.waitFor channel word, Rotation.clockAfter word words⟩ := by
  have inside := word.isLt
  rw [cellLimit] at room
  rw [Rotation.wait?_eq_some (by omega) (by rw [countLimit]; omega) (by rw [countLimit]; omega)
    (by decide) (by rw [countLimit]; omega), waitPulses_of_aligned aligned]
  exact ⟨_, rfl⟩

/-- An alignment issues the least number of pulses that brings its word to the head, and says
how many they were.  Between words the count of words comes to the same number as the count of
cells, and without wrapping round if memory has room for the bank.  Forty pulses later the next
word is at the head, and forty pulses are what it takes to read or write the word or to move it
between the bank and a register. -/
theorem align_exact (bank : Bank channels words) (channel : Fin channels) (word : Fin words) :
    ∃ wait after, bank.serve (.align channel word) = (.ok (.count wait), after) ∧
      Awaited channel word bank wait after ∧
      (bank.position channel % 40 = 0 →
        Rotation.waitPulses (bank.position channel / 40) word words 40 = wait ∧
          (words * 40 < cellLimit → ∃ passing,
            Rotation.wait? (bank.position channel / 40) word words 40 =
              some ⟨passing, wait, Rotation.clockAfter word words⟩)) ∧
      (word * 40 + words * 40 - bank.position channel) % (words * 40) = wait ∧
      Turned channel after 40 (bank.readWord channel word).2 ∧
      (∀ value, Turned channel after 40 (bank.writeWord channel word value)) ∧
      ∀ registers request, Turned channel after 40
        ((⟨registers, bank⟩ : Bench channels words).transfer request channel word).result.bank := by
  refine ⟨_, _, bank.serve_align channel word, bank.awaited_align channel word, ?_,
    (bank.waitFor_eq channel word).symm, bank.turned_readWord channel word,
    bank.turned_writeWord channel word, ?_⟩
  · intro aligned
    exact ⟨waitPulses_of_aligned aligned word, fun room => wait?_of_aligned room aligned word⟩
  · intro registers request
    exact turned_transfer channel word ⟨registers, bank⟩ request

/-- From inside a word, with a bit pending and refresh off, to the last word and past it. -/
theorem align_exact_midWord :
    ∃ bank after : Bank 2 3, bank.position 1 = 45 ∧ (bank.line 1).pending = some true ∧
      (bank.line 1).refresh = false ∧ bank.serve (.align 1 2) = (.ok (.count 35), after) ∧
      after.clock 1 = 2 ∧ (bank.writeWord 1 2 5).clock 1 = 0 := by
  obtain ⟨bank, position, pending, refresh⟩ : ∃ bank : Bank 2 3, bank.position 1 = 45 ∧
      (bank.line 1).pending = some true ∧ (bank.line 1).refresh = false := by
    refine ⟨((Bank.pulse 1)^[45] (blank "data" .lowFirst (by decide))).modifyLine 1
      (DelayLine.schedule true ∘ DelayLine.setRefresh false), by decide +kernel, ?_, ?_⟩
    all_goals
      rw [line_modifyLine]
      rfl
  obtain ⟨wait, after, served, awaited, -, counted, -, written, -⟩ := bank.align_exact 1 2
  obtain rfl : 35 = wait := by
    rw [← counted, position]
    rfl
  exact ⟨bank, after, position, pending, refresh, served, awaited.clock,
    (awaited.passed _ (written 5)).1⟩

end BitSerial.Bank
