import BitSerial.Proofs.Bank.Passing
import BitSerial.Proofs.Machine.Reachable

/-!
# What always holds of a machine

No sequence of uses, successful or refused, brings a machine out of shape: the
counter stays in main memory, every line keeps its length, rests with refresh on,
and the program line stands between two words.  So a machine works only at places
that its banks have, and a step that fails does so because of the word at the
counter.
-/

namespace BitSerial

/-- Why a step fails on a machine. -/
inductive StepError.Explains {geometry : Geometry} (machine : WordMachine geometry) :
    StepError → Prop
  /-- The machine has halted. -/
  | notRunning (halted : machine.state = .halted) : Explains machine (.notRunning .halted)
  /-- The opcode byte of the word at the counter belongs to no operation. -/
  | unknownOpcode {byte : BitVec 8} (running : machine.state = .running)
      (fetched : Word.opcode (machine.main machine.counter) = byte)
      (unknown : Opcode.ofByte? byte = none) :
      Explains machine (.unknownOpcode byte machine.counter)
  /-- The word at the counter addresses a data word that is not there. -/
  | dataAddress {op : DataOp} {address : DataAddress} (running : machine.state = .running)
      (decoded : Instruction.decode (machine.main machine.counter) = .ok (.data op address))
      (outside : geometry.dataBanks ≤ address.bank.toNat ∨
        geometry.bankWords ≤ address.word.toNat) :
      Explains machine (.dataAddress address.bank.toNat address.word.toNat machine.counter)
  /-- The word at the counter addresses a program word that is not there. -/
  | mainAddress {op : WideOp} {operand : Operand} {address : Nat}
      (running : machine.state = .running)
      (decoded : Instruction.decode (machine.main machine.counter) = .ok (.wide op operand))
      (named : address = operand.toNat ∨ address = machine.base + operand.toNat)
      (outside : geometry.mainWords ≤ address) :
      Explains machine (.mainAddress address machine.counter)

namespace WordMachine

variable {geometry : Geometry} {machine : WordMachine geometry} {error : StepError}

theorem outside_of_goto {address : Nat} (failed : (machine.goto address).1 = .error error) :
    geometry.mainWords ≤ address ∧ error = .mainAddress address machine.counter := by
  rw [goto] at failed
  split at failed
  · cases failed
  · rename_i outside
    cases failed
    exact ⟨Nat.le_of_not_lt outside, rfl⟩

theorem outside_of_atMain {address : Nat} {act : Fin geometry.mainWords → WordMachine geometry}
    (failed : (machine.atMain address act).1 = .error error) :
    geometry.mainWords ≤ address ∧ error = .mainAddress address machine.counter := by
  rw [atMain] at failed
  split at failed
  · cases failed
  · rename_i outside
    cases failed
    exact ⟨Nat.le_of_not_lt outside, rfl⟩

theorem outside_of_atData {address : DataAddress}
    {act : Fin geometry.dataBanks → Fin geometry.bankWords → WordMachine geometry}
    (failed : (machine.atData address act).1 = .error error) :
    (geometry.dataBanks ≤ address.bank.toNat ∨ geometry.bankWords ≤ address.word.toNat) ∧
      error = .dataAddress address.bank.toNat address.word.toNat machine.counter := by
  rcases inside_or_outside geometry address with ⟨bankInside, wordInside⟩ | outside
  · rw [atData_of_inside bankInside wordInside] at failed
    cases failed
  · rw [atData_of_outside outside] at failed
    cases failed
    exact ⟨outside, rfl⟩

/-- Only an address that is not there makes an instruction with an operand fail. -/
theorem outside_of_executeWide {op : WideOp} {operand : Operand}
    (failed : (machine.executeWide op operand).1 = .error error) :
    ∃ address, (address = operand.toNat ∨ address = machine.base + operand.toNat) ∧
      geometry.mainWords ≤ address ∧ error = .mainAddress address machine.counter := by
  cases op with
  | lai | lbi | lea | leb | rnd | mla => cases failed
  | ldp | stp => exact ⟨operand.toNat, .inl rfl, outside_of_atMain failed⟩
  | jmp => exact ⟨machine.base + operand.toNat, .inr rfl, outside_of_goto failed⟩
  | jmpa => exact ⟨operand.toNat, .inl rfl, outside_of_goto failed⟩
  | jza | jna =>
      rw [executeWide] at failed
      split at failed
      · exact ⟨machine.base + operand.toNat, .inr rfl, outside_of_goto failed⟩
      · cases failed

/-- Every error of a step is explained by the machine that it was taken on. -/
theorem explains_of_step (failed : machine.step.1 = .error error) : error.Explains machine := by
  cases running : machine.state with
  | halted =>
      rw [step_of_halted running] at failed
      cases failed
      exact .notRunning running
  | running =>
      rw [step_of_running running, executeWord, InstructionTable.read_eq_decode] at failed
      cases decoded : Instruction.decode (machine.main machine.counter) with
      | error unknown =>
          rw [decoded] at failed
          cases failed
          rw [Instruction.decode] at decoded
          split at decoded
          · cases decoded
          · rename_i none
            cases decoded
            exact .unknownOpcode running rfl none
      | ok instruction =>
          rw [decoded] at failed
          dsimp only at failed
          rcases executed : machine.execute instruction with ⟨outcome, after⟩
          rw [executed] at failed
          cases outcome with
          | ok jump => cases failed
          | error reason =>
              cases failed
              have executedError := congrArg Prod.fst executed
              cases instruction with
              | plain op => cases executedError
              | wide op operand =>
                  obtain ⟨address, named, outside, rfl⟩ := outside_of_executeWide executedError
                  exact .mainAddress running decoded named outside
              | data op address =>
                  obtain ⟨outside, rfl⟩ := outside_of_atData executedError
                  exact .dataAddress running decoded outside

end WordMachine

namespace Machine

variable {geometry : Geometry} {machine : Machine geometry}

/-- A machine in shape. -/
structure Sound (machine : Machine geometry) : Prop where
  counter_lt : machine.counter.val < geometry.mainWords
  base_le : machine.base ≤ geometry.mainWords
  /-- Registers are one word long. -/
  register_size : ∀ name, (machine.registers.get name).tape.toArray.size = 40
  /-- Nothing is pending on a register, and refresh is on. -/
  register_settled : ∀ name, (machine.registers.get name).Settled
  main_size : (machine.main.line Bank.sole).tape.toArray.size = geometry.mainWords * 40
  main_settled : (machine.main.line Bank.sole).Settled
  /-- The program line is between two words. -/
  main_aligned : machine.main.position Bank.sole % 40 = 0
  main_position_lt : machine.main.position Bank.sole < geometry.mainWords * 40
  data_size : ∀ bank, (machine.data.line bank).tape.toArray.size = geometry.bankWords * 40
  data_settled : ∀ bank, (machine.data.line bank).Settled
  data_position_lt : ∀ bank, machine.data.position bank < geometry.bankWords * 40

/-- Every place at which the machine works is one that a bank admits by number, so
that none of its requests to a bank is refused. -/
structure Admitted (machine : Machine geometry) : Prop where
  /-- A step fetches the word that the program line gives to a read by number. -/
  fetch : machine.main.serve (.read 0 machine.counter) =
    (.ok (.word machine.fetch.1), machine.fetch.2.main)
  /-- An instruction's program word is there if the machine takes it for granted. -/
  main : ∀ address word, machine.mainPlace? address = .ok word →
    machine.main.place? 0 address = .ok (Bank.sole, word)
  /-- An instruction's data word is there if the machine takes it for granted. -/
  data : ∀ address place, machine.dataPlace? address = .ok place →
    machine.data.place? address.bank.toNat address.word.toNat = .ok place
  /-- Loading starts at the first word and ends at the program's. -/
  load : ∀ address, machine.main.place? 0 (address % geometry.mainWords) =
    .ok (Bank.sole, machine.around address)

/-- What can go wrong with a machine: a step finds it halted or finds no
instruction that it can execute, a run ends with such a step or has no count to stop
at, and a program is too large or made for another place.  Where no step was taken
the machine is as it was. -/
structure Faults (machine : Machine geometry) : Prop where
  step : ∀ error, machine.step.1 = .error error → error.Explains machine.view
  run : ∀ fuel error after, machine.run? fuel = some (.error error, after) →
    ∃ before : Machine geometry, before.Reachable ∧ before.state = .running ∧
      before.step = (.error error, after) ∧ error.Explains before.view
  runLimited : ∀ maximum error, (machine.runLimited maximum).1 = .error (.step error) →
    ∃ before : Machine geometry, before.Reachable ∧ before.state = .running ∧
      before.step = (.error error, (machine.runLimited maximum).2) ∧ error.Explains before.view
  overflow : ∀ maximum, (machine.runLimited maximum).1 = .error .overflow →
    countLimit ≤ machine.cycles.toNat + maximum.toNat ∧ (machine.runLimited maximum).2 = machine
  loadWords : ∀ words error after, machine.loadWords words = (.error error, after) →
    (geometry.mainWords < words.length ∧
      error = .programTooLarge words.length geometry.mainWords) ∧ after = machine
  loadProgram : ∀ program error after, machine.loadProgram program = (.error error, after) →
    (geometry.mainWords < program.size ∧
        error = .programTooLarge program.size geometry.mainWords ∨
      program.base ≠ geometry.mainWords - program.size ∧
        error = .baseMismatch program.base (geometry.mainWords - program.size)) ∧
      after = machine

theorem Represents.sound {state : WordMachine geometry} (represents : machine.Represents state) :
    machine.Sound where
  counter_lt := machine.counter.isLt
  base_le := represents.base.symm ▸ represents.base_le
  register_size name := (machine.registers.get name).tape.size_toArray
  register_settled name := (represents.registers.get name).settled
  main_size := (machine.main.line Bank.sole).tape.size_toArray
  main_settled := represents.main.settled Bank.sole
  main_aligned := represents.mainAligned
  main_position_lt := machine.main.position_lt Bank.sole
  data_size bank := (machine.data.line bank).tape.size_toArray
  data_settled := represents.data.settled
  data_position_lt := machine.data.position_lt

theorem admitted (machine : Machine geometry) : machine.Admitted where
  fetch := by
    have place : machine.main.place? 0 machine.counter = .ok (Bank.sole, machine.counter) :=
      machine.main.place?_of_inside Nat.zero_lt_one machine.counter.isLt
    rw [Bank.serve, Bank.onPlace, place]
    rfl
  main address word admitted := by
    rw [mainPlace?] at admitted
    split at admitted
    · rename_i inside
      cases admitted
      exact machine.main.place?_of_inside Nat.zero_lt_one inside
    · cases admitted
  data address place admitted := by
    rw [dataPlace?] at admitted
    split at admitted
    · rename_i inside
      cases admitted
      exact machine.data.place?_of_inside inside.1 inside.2
    · cases admitted
  load address := machine.main.place?_of_inside Nat.zero_lt_one (machine.around address).isLt

theorem eq_error_of_map {α β : Type} {result : Except StepError α} {change : α → β}
    {error : StepError} (failed : result.map change = .error error) : result = .error error := by
  cases result with
  | error _ =>
      cases failed
      rfl
  | ok _ => cases failed

theorem eq_error_of_mapError {α : Type} {result : Except StepError α} {error : StepError}
    (failed : result.mapError RunError.step = .error (.step error)) : result = .error error := by
  cases result with
  | error _ =>
      cases failed
      rfl
  | ok _ => cases failed

/-- A run that fails ends with a step that fails, on a machine that still runs. -/
theorem Reachable.fails_of_runFor (reachable : machine.Reachable) {count : Nat}
    {error : StepError} (failed : (machine.runFor count).1 = .error error) :
    ∃ before : Machine geometry, before.Reachable ∧ before.state = .running ∧
      before.step = (.error error, (machine.runFor count).2) ∧ error.Explains before.view := by
  induction count generalizing machine with
  | zero => cases failed
  | succ count ih =>
      rw [runFor] at failed ⊢
      cases running : machine.state with
      | halted =>
          rw [running] at failed
          cases failed
      | running =>
          rw [running] at failed
          dsimp only at failed ⊢
          rcases stepped : machine.step with ⟨outcome, after⟩
          rw [stepped] at failed
          cases outcome with
          | error reason =>
              cases failed
              have explained : machine.view.step.1 = .error error := by
                rw [← reachable.represents.step.1, stepped]
              exact ⟨machine, reachable, running, stepped,
                WordMachine.explains_of_step explained⟩
          | ok instruction =>
              have next : after.Reachable := by
                have reached := Reachable.step reachable
                rwa [stepped] at reached
              exact ih next failed

theorem Reachable.faults (reachable : machine.Reachable) : machine.Faults where
  step error failed := by
    rw [reachable.represents.step.1] at failed
    exact WordMachine.explains_of_step failed
  run fuel error after ended := by
    obtain ⟨outcome, rfl⟩ := eq_runFor_of_run ended
    exact reachable.fails_of_runFor (eq_error_of_map outcome)
  runLimited maximum error failed := by
    rcases Nat.lt_or_ge (machine.cycles.toNat + maximum.toNat) countLimit with fits | overflow
    · rw [runLimited_of_fits fits] at failed ⊢
      exact reachable.fails_of_runFor (eq_error_of_map (eq_error_of_mapError failed))
    · rw [runLimited_of_overflow overflow] at failed
      cases failed
  overflow maximum failed := by
    rcases Nat.lt_or_ge (machine.cycles.toNat + maximum.toNat) countLimit with fits | overflow
    · rw [runLimited_of_fits fits] at failed
      generalize (machine.runFor maximum.toNat).1 = outcome at failed
      cases outcome <;> cases failed
    · exact ⟨overflow, by rw [runLimited_of_overflow overflow]⟩
  loadWords words error after refused := by
    refine ⟨?_, eq_of_loadWords_error refused⟩
    rw [Machine.loadWords] at refused
    split at refused
    · cases refused
      exact ⟨‹_›, rfl⟩
    · cases refused
  loadProgram program error after refused := by
    refine ⟨?_, eq_of_loadProgram_error refused⟩
    rw [Machine.loadProgram] at refused
    split at refused
    · cases refused
      exact .inl ⟨‹_›, rfl⟩
    · dsimp only at refused
      split at refused
      · rename_i fits _
        obtain ⟨loaded, written⟩ := loadWords_of_le (Nat.le_of_not_lt fits) machine
        rw [written] at refused
        cases refused
      · cases refused
        exact .inr ⟨‹_›, rfl⟩

/-- Whatever was done to a machine, it is in shape, works only at places that its
banks have, and fails only for a reason that the word at its counter gives. -/
theorem Reachable.stays_sound (reachable : machine.Reachable) :
    machine.Sound ∧ machine.Admitted ∧ (∃ valid, geometry.validate = .ok valid) ∧
      machine.Faults :=
  ⟨reachable.represents.sound, machine.admitted,
    Geometry.validate_eq_ok_iff.mpr reachable.valid, reachable.faults⟩

/-- A machine that failed at a word that is no instruction is still in shape. -/
theorem stays_sound_after_unknown_opcode :
    ∃ machine : Machine {}, machine.Reachable ∧
      machine.step.1 = .error (.unknownOpcode 0x0F#8 63) ∧ machine.step.2.Reachable ∧
      machine.step.2.Sound ∧ machine.step.2.Admitted ∧
      (∃ valid, Geometry.validate {} = .ok valid) ∧ machine.step.2.Faults := by
  obtain ⟨machine, reachable, represents⟩ := exists_represents_load [0x0F00000000#40] (by decide)
  have failed : machine.step.1 = .error (.unknownOpcode 0x0F#8 63) := by
    rw [represents.step.1]
    decide +kernel
  exact ⟨machine, reachable, failed, reachable.step, reachable.step.stays_sound⟩

end Machine

end BitSerial
