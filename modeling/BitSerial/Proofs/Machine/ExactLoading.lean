import BitSerial.Proofs.Machine.Reachable

/-!
# What loading makes of a machine

Whatever ran on a machine before, wherever its lines stood and whether it had
halted, a program that fits leaves it in the same state but for what a load does
not touch.  How long that takes depends on one thing, the word that was at the head
of the program line.
-/

namespace BitSerial

namespace Bank

variable {channels words : Nat}

/-- Between two words the position is that of the word at the head. -/
theorem clock_mul_of_aligned {bank : Bank channels words} {channel : Fin channels}
    (aligned : bank.position channel % 40 = 0) :
    bank.clock channel * 40 = bank.position channel :=
  Nat.div_mul_cancel (Nat.dvd_of_mod_eq_zero aligned)

/-- Between two words the wait is counted in words. -/
theorem waitFor_of_aligned {bank : Bank channels words} {channel : Fin channels}
    (aligned : bank.position channel % 40 = 0) (word : Fin words) :
    bank.waitFor channel word = (word + words - bank.clock channel) % words * 40 := by
  rw [waitFor_eq, ← clock_mul_of_aligned aligned, ← Nat.mul_mod_mul_right, Nat.sub_mul,
    Nat.add_mul]

end Bank

namespace Machine

variable {geometry : Geometry} {machine : Machine geometry}

/-- The pulses of loading so many words: round to the first word of the line, round
the whole line, and on to the first word of the program. -/
def loadPulses (machine : Machine geometry) (size : Nat) : Nat :=
  40 * ((geometry.mainWords - machine.clock) % geometry.mainWords + geometry.mainWords +
    (geometry.mainWords - size) % geometry.mainWords)

/-- A machine right after a program was loaded into another. -/
structure LoadedFrom (after before : Machine geometry) (program : List Word) : Prop where
  /-- The program ends where main memory ends. -/
  base : after.base = geometry.mainWords - program.length
  word : ∀ index (inside : index < program.length) (address : Fin geometry.mainWords),
    address.val = after.base + index →
      after.main.peekWord Bank.sole address = program[index]
  /-- There is nothing before it. -/
  clear : ∀ address : Fin geometry.mainWords, address.val < after.base →
    after.main.peekWord Bank.sole address = 0
  /-- Refresh is on and nothing is pending. -/
  settled : (after.main.line Bank.sole).Settled
  /-- The first bit of the first word is at the head. -/
  position : after.main.position Bank.sole = after.base % geometry.mainWords * 40
  counter : after.counter.val = after.base % geometry.mainWords
  state : after.state = .running
  ticks : before.ticks.toNat + before.loadPulses program.length < countLimit →
    after.ticks.toNat = before.ticks.toNat + before.loadPulses program.length
  registers : after.registers = before.registers
  data : after.data = before.data
  output : after.output = before.output
  cycles : after.cycles = before.cycles
  last : after.last = before.last

/-- Writing over the whole line brings it back to where it was. -/
theorem head_imprint {line : DelayLine (geometry.mainWords * 40)} (settled : line.Settled)
    {program : List Word} (short : program.length ≤ geometry.mainWords) :
    (imprint (geometry.mainWords - program.length) program line).head.val = line.head.val := by
  rw [imprint_eq settled, DelayLine.head_writeAll, StreamOrder.length_flatMap_bits,
    List.length_append, List.length_replicate, Nat.sub_add_cancel short, Nat.add_mod_right,
    Nat.mod_eq_of_lt line.head.isLt]

/-- Both waits of a load, and the revolution between them. -/
theorem wait_add_wait {state : WordMachine geometry} (represents : machine.Represents state)
    {program : List Word} (short : program.length ≤ geometry.mainWords) :
    machine.main.waitFor Bank.sole (machine.around 0) + geometry.mainWords * 40 +
        ((machine.main.align Bank.sole (machine.around 0)).modifyLine Bank.sole
          (imprint (geometry.mainWords - program.length) program)).waitFor Bank.sole
            (machine.around (geometry.mainWords - program.length)) =
      machine.loadPulses program.length := by
  have first : (machine.around 0).val = 0 := Nat.zero_mod _
  have settled := (represents.main.align Bank.sole (machine.around 0)).settled Bank.sole
  have start : ((machine.main.align Bank.sole (machine.around 0)).modifyLine Bank.sole
      (imprint (geometry.mainWords - program.length) program)).position Bank.sole = 0 := by
    rw [Bank.position, Bank.line_modifyLine, head_imprint settled short, Bank.head_align, first,
      Nat.zero_mul]
  have atFirst : ((machine.main.align Bank.sole (machine.around 0)).modifyLine Bank.sole
      (imprint (geometry.mainWords - program.length) program)).clock Bank.sole = 0 := by
    rw [Bank.clock, start]
  have entry : (machine.around (geometry.mainWords - program.length)).val =
      (geometry.mainWords - program.length) % geometry.mainWords := rfl
  rw [Bank.waitFor_of_aligned represents.mainAligned, Bank.waitFor_of_aligned (by rw [start]),
    atFirst, first, entry, Nat.zero_add, Nat.sub_zero, Nat.add_mod_right, Nat.mod_mod, loadPulses,
    clock]
  ring

theorem Represents.loadedFrom {state : WordMachine geometry}
    (represents : machine.Represents state) {program : List Word} {after : Machine geometry}
    (loaded : machine.loadWords program = (.ok (), after)) : after.LoadedFrom machine program := by
  have loads := represents.loadWords loaded
  have short : program.length ≤ geometry.mainWords := by
    by_contra large
    rw [Machine.loadWords, if_pos (Nat.lt_of_not_le large)] at loaded
    cases loaded
  have pulses := wait_add_wait represents short
  rw [Machine.loadWords, if_neg (Nat.not_lt_of_le short)] at loaded
  cases loaded
  exact {
    base := rfl
    word := fun index inside address place => by
      rw [loads.main.word]
      exact WordMachine.image_of_getElem inside place
    clear := fun address before => by
      rw [loads.main.word]
      exact if_neg (Nat.not_le_of_lt before)
    settled := loads.main.settled Bank.sole
    position := Bank.position_align _ _ _
    counter := rfl
    state := rfl
    ticks := fun fits => by
      dsimp only
      rw [pulses, UInt64.toNat_add, UInt64.toNat_ofNat', Nat.add_mod_mod]
      exact Nat.mod_eq_of_lt fits
    registers := rfl
    data := rfl
    output := rfl
    cycles := rfl
    last := rfl }

/-- Loading is exact and all or nothing: words that fit are loaded, and everything
about the machine afterwards is known; words that do not fit are refused, and so is
a program that was made for another place, and then the machine stays as it was. -/
theorem Reachable.loading_exact (reachable : machine.Reachable) :
    (∀ words : List Word, words.length ≤ geometry.mainWords →
      ∃ after, machine.loadWords words = (.ok (), after) ∧ after.LoadedFrom machine words) ∧
    (∀ words : List Word, geometry.mainWords < words.length →
      machine.loadWords words =
        (.error (.programTooLarge words.length geometry.mainWords), machine)) ∧
    (∀ program : Program, program.size ≤ geometry.mainWords →
      program.base = geometry.mainWords - program.size →
        machine.loadProgram program = machine.loadWords program.words) ∧
    (∀ program : Program, geometry.mainWords < program.size →
      machine.loadProgram program =
        (.error (.programTooLarge program.size geometry.mainWords), machine)) ∧
    ∀ program : Program, program.size ≤ geometry.mainWords →
      program.base ≠ geometry.mainWords - program.size →
        machine.loadProgram program =
          (.error (.baseMismatch program.base (geometry.mainWords - program.size)), machine) := by
  refine ⟨?_, ?_, ?_, ?_, ?_⟩
  · intro words fits
    obtain ⟨after, loaded⟩ := loadWords_of_le fits machine
    exact ⟨after, loaded, reachable.represents.loadedFrom loaded⟩
  · intro words large
    rw [Machine.loadWords, if_pos large]
  · intro program fits base
    rw [Machine.loadProgram, if_neg (Nat.not_lt_of_le fits)]
    exact if_pos base
  · intro program large
    rw [Machine.loadProgram, if_pos large]
  · intro program fits base
    rw [Machine.loadProgram, if_neg (Nat.not_lt_of_le fits)]
    exact if_neg base

/-- A machine whose program has written over itself is loaded with no words at all,
and refuses sixty-five words and a program for another place. -/
theorem loading_exact_rewritten :
    ∃ machine : Machine {}, machine.Reachable ∧ machine.view.main 63 = 0 ∧
      machine.view.counter = 0 ∧
      (∃ after, machine.loadWords [] = (.ok (), after) ∧ after.LoadedFrom machine []) ∧
      machine.loadWords (List.replicate 65 0) = (.error (.programTooLarge 65 64), machine) ∧
      machine.loadProgram ⟨0, [0], .empty⟩ = (.error (.baseMismatch 0 63), machine) := by
  obtain ⟨machine, reachable, loaded⟩ := exists_represents_load [0x190000003F#40] (by decide)
  have represents := loaded.step.2
  obtain ⟨loads, refuses, -, -, mismatches⟩ := reachable.step.loading_exact
  refine ⟨machine.step.2, reachable.step, ?_, ?_, loads [] (Nat.zero_le _), ?_, ?_⟩
  · rw [represents.view_eq]
    decide +kernel
  · rw [represents.view_eq]
    decide +kernel
  · exact refuses (List.replicate 65 0) (by decide)
  · exact mismatches ⟨0, [0], .empty⟩ (by decide) (by decide)

end Machine

end BitSerial
