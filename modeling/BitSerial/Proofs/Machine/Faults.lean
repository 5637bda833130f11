import BitSerial.Proofs.Instruction.Opcodes
import BitSerial.Proofs.Machine.Soundness

/-!
# Faults

A step that fails does so for a reason that can be read off the words, and for no
other.  It has turned the program line past the word it fetched, and it halts the
machine; everything else is as it was.  From then on nothing but loading or a
reset makes the machine move again.
-/

namespace BitSerial

/-! ## Reasons -/

/-- The program address that an instruction with an operand needs to be there.  A
conditional jump that is not taken needs none. -/
def WordMachine.Needs {geometry : Geometry} (machine : WordMachine geometry) (op : WideOp)
    (operand : Operand) (address : Nat) : Prop :=
  match op with
  | .ldp | .stp | .jmpa => address = operand.toNat
  | .jmp => address = machine.base + operand.toNat
  | .jza => machine.a = 0 ∧ address = machine.base + operand.toNat
  | .jna => machine.a.msb = true ∧ address = machine.base + operand.toNat
  | .lai | .lbi | .lea | .leb | .rnd | .mla => False

/-- What is wrong with the word at the counter. -/
inductive StepError.Befalls {geometry : Geometry} (machine : WordMachine geometry) :
    StepError → Prop
  /-- No operation has its opcode byte. -/
  | unknownOpcode
      (unknown : ∀ opcode : Opcode, opcode.byte ≠ Word.opcode (machine.main machine.counter)) :
      Befalls machine
        (.unknownOpcode (Word.opcode (machine.main machine.counter)) machine.counter)
  /-- It works on a data word that is not there. -/
  | dataAddress {op : DataOp} {address : DataAddress}
      (decoded : Instruction.decode (machine.main machine.counter) = .ok (.data op address))
      (outside : geometry.dataBanks ≤ address.bank.toNat ∨
        geometry.bankWords ≤ address.word.toNat) :
      Befalls machine (.dataAddress address.bank.toNat address.word.toNat machine.counter)
  /-- It needs a program word that is not there. -/
  | mainAddress {op : WideOp} {operand : Operand} {address : Nat}
      (decoded : Instruction.decode (machine.main machine.counter) = .ok (.wide op operand))
      (needed : machine.Needs op operand address)
      (outside : geometry.mainWords ≤ address) :
      Befalls machine (.mainAddress address machine.counter)

namespace WordMachine

variable {geometry : Geometry} {machine : WordMachine geometry} {error : StepError}

theorem goto_eq_error_iff {address : Nat} :
    (machine.goto address).1 = .error error ↔
      geometry.mainWords ≤ address ∧ error = .mainAddress address machine.counter := by
  constructor
  · exact outside_of_goto
  · rintro ⟨outside, rfl⟩
    rw [goto, dif_neg (Nat.not_lt_of_le outside)]

theorem atMain_eq_error_iff {address : Nat}
    {act : Fin geometry.mainWords → WordMachine geometry} :
    (machine.atMain address act).1 = .error error ↔
      geometry.mainWords ≤ address ∧ error = .mainAddress address machine.counter := by
  constructor
  · exact outside_of_atMain
  · rintro ⟨outside, rfl⟩
    rw [atMain, dif_neg (Nat.not_lt_of_le outside)]

theorem executeData_eq_error_iff {op : DataOp} {address : DataAddress} :
    (machine.executeData op address).1 = .error error ↔
      (geometry.dataBanks ≤ address.bank.toNat ∨ geometry.bankWords ≤ address.word.toNat) ∧
        error = .dataAddress address.bank.toNat address.word.toNat machine.counter := by
  constructor
  · exact outside_of_atData
  · rintro ⟨outside, rfl⟩
    rw [executeData, atData_of_outside outside]

/-- An instruction with an operand fails exactly if it needs an address that is not
there. -/
theorem executeWide_eq_error_iff {op : WideOp} {operand : Operand} :
    (machine.executeWide op operand).1 = .error error ↔
      ∃ address, machine.Needs op operand address ∧ geometry.mainWords ≤ address ∧
        error = .mainAddress address machine.counter := by
  cases op with
  | lai | lbi | lea | leb | rnd | mla =>
      constructor
      · intro failed
        cases failed
      · rintro ⟨_, needed, _⟩
        exact needed.elim
  | ldp | stp =>
      rw [executeWide, atMain_eq_error_iff]
      simp [Needs]
  | jmp | jmpa =>
      rw [executeWide, goto_eq_error_iff]
      simp [Needs]
  | jza =>
      rw [executeWide]
      split
      · rename_i zero
        rw [goto_eq_error_iff]
        simp [Needs, zero]
      · rename_i notZero
        simp only [Needs, notZero]
        simp [next]
  | jna =>
      rw [executeWide]
      split
      · rename_i negative
        rw [goto_eq_error_iff]
        simp [Needs, negative]
      · rename_i notNegative
        simp only [Needs, notNegative]
        simp [next]

theorem step_eq_error_iff_of_decode {instruction : Instruction}
    (running : machine.state = .running)
    (decoded : Instruction.decode (machine.main machine.counter) = .ok instruction) :
    machine.step.1 = .error error ↔ (machine.execute instruction).1 = .error error := by
  rw [step_of_running running, executeWord, InstructionTable.read_eq_decode, decoded]
  dsimp only
  rcases machine.execute instruction with ⟨outcome, after⟩
  cases outcome with
  | error reason => simp
  | ok jump => simp

theorem befalls_of_step (running : machine.state = .running)
    (failed : machine.step.1 = .error error) : error.Befalls machine := by
  cases decoded : Instruction.decode (machine.main machine.counter) with
  | error unknown =>
      obtain ⟨byte, none⟩ := Instruction.decode_eq_error_iff.mp decoded
      rw [step_of_unknown running decoded, byte] at failed
      cases failed
      exact .unknownOpcode none
  | ok instruction =>
      rw [step_eq_error_iff_of_decode running decoded] at failed
      cases instruction with
      | plain op => cases failed
      | wide op operand =>
          obtain ⟨address, needed, outside, rfl⟩ := executeWide_eq_error_iff.mp failed
          exact .mainAddress decoded needed outside
      | data op address =>
          obtain ⟨outside, rfl⟩ := executeData_eq_error_iff.mp failed
          exact .dataAddress decoded outside

/-- A running machine's step fails exactly with what befalls the machine. -/
theorem step_eq_error_iff (running : machine.state = .running) :
    machine.step.1 = .error error ↔ error.Befalls machine := by
  constructor
  · exact befalls_of_step running
  · intro befalls
    cases befalls with
    | unknownOpcode unknown =>
        let byte := Word.opcode (machine.main machine.counter)
        have decoded : Instruction.decode (machine.main machine.counter) = .error ⟨byte⟩ :=
          Instruction.decode_eq_error_iff.mpr ⟨rfl, unknown⟩
        rw [step_of_unknown running decoded]
    | dataAddress decoded outside =>
        rw [step_eq_error_iff_of_decode running decoded]
        exact executeData_eq_error_iff.mpr ⟨outside, rfl⟩
    | mainAddress decoded needed outside =>
        rw [step_eq_error_iff_of_decode running decoded]
        exact executeWide_eq_error_iff.mpr ⟨_, needed, outside, rfl⟩

end WordMachine

namespace Machine

variable {geometry : Geometry} {machine : Machine geometry}

/-! ## What a failed step leaves -/

/-- A machine that has halted, while all that a program can see is as it was, and
the data banks have not turned. -/
structure HaltedFrom (after before : Machine geometry) : Prop where
  state : after.state = .halted
  counter : after.counter = before.counter
  base : after.base = before.base
  cycles : after.cycles = before.cycles
  last : after.last = before.last
  output : after.output = before.output
  register : ∀ name, after.registers.peek name = before.registers.peek name
  main : ∀ address, after.main.peekWord Bank.sole address = before.main.peekWord Bank.sole address
  data : ∀ bank word, after.data.peekWord bank word = before.data.peekWord bank word
  position : ∀ bank, after.data.position bank = before.data.position bank

/-- An instruction that fails has changed nothing.  Only conditional jumps touch a
line before they fail, and a scan leaves the accumulator as it found it. -/
theorem eq_of_execute_error {a b s : Word} (hold : machine.registers.Hold a b s)
    {instruction : Instruction} {error : StepError}
    (failed : (machine.execute instruction).1 = .error error) :
    (machine.execute instruction).2 = machine := by
  have jumpTo (address ticks : Nat) : (machine.jumpTo address ticks).2 = machine := by
    rw [Machine.jumpTo]
    split <;> rfl
  have jumpIf (condition : Arithmetic.Scan → Bool) (address : Nat) :
      (machine.jumpIf condition address).2 = machine := by
    rw [Machine.jumpIf, Arithmetic.scan_eq hold]
    dsimp only
    split
    · exact jumpTo address 40
    · rfl
  cases instruction with
  | plain op => cases op <;> cases failed
  | wide op operand =>
      cases op with
      | lai | lbi | lea | leb | rnd | mla => cases failed
      | ldp | stp =>
          rw [execute, executeWide] at failed ⊢
          split at failed
          · cases failed
          · rfl
      | jmp | jmpa =>
          rw [execute, executeWide]
          exact jumpTo _ _
      | jza | jna =>
          rw [execute, executeWide]
          exact jumpIf _ _
  | data op address =>
      rw [execute, executeData] at failed ⊢
      split at failed
      · rfl
      · cases op <;> cases failed

/-- A step that fails has fetched a word and halted the machine, and nothing else. -/
theorem eq_of_step_error {a b s : Word} (hold : machine.registers.Hold a b s)
    (running : machine.state = .running) {error : StepError}
    (failed : machine.step.1 = .error error) :
    machine.step.2 = { machine.fetch.2 with state := .halted } := by
  have fetchedHold : machine.fetch.2.registers.Hold a b s := hold
  rw [step, running] at failed ⊢
  dsimp only at failed ⊢
  rw [cycle] at failed ⊢
  generalize machine.fetch = fetch at fetchedHold failed ⊢
  rcases fetch with ⟨word, fetched⟩
  dsimp only at fetchedHold failed ⊢
  cases decoded : Instruction.decode word with
  | error unknown => rfl
  | ok instruction =>
      rw [decoded] at failed
      dsimp only at failed ⊢
      have unchanged (reason : StepError)
          (refused : (fetched.execute instruction).1 = .error reason) :
          (fetched.execute instruction).2 = fetched :=
        eq_of_execute_error fetchedHold refused
      generalize fetched.execute instruction = done at unchanged failed ⊢
      rcases done with ⟨outcome, executed⟩
      cases outcome with
      | error reason =>
          obtain rfl : executed = fetched := unchanged reason rfl
          rfl
      | ok flow => cases failed

theorem Reachable.haltedFrom (reachable : machine.Reachable) (running : machine.state = .running)
    {error : StepError} (failed : machine.step.1 = .error error) :
    machine.step.2.HaltedFrom machine := by
  have represents := reachable.represents
  rw [eq_of_step_error represents.registers running failed]
  exact {
    state := rfl
    counter := rfl
    base := rfl
    cycles := rfl
    last := rfl
    output := rfl
    register := fun _ => rfl
    main := represents.fetch.2.main.word Bank.sole
    data := fun _ _ => rfl
    position := fun _ => rfl }

/-! ## A halted machine -/

/-- What a machine may become as long as it is neither loaded nor reset: it is
stepped and run, refuses programs, has its output taken, and anything is done with its
registers and its data memory. -/
inductive Onward (start : Machine geometry) : Machine geometry → Prop
  | here : Onward start start
  | step {later : Machine geometry} (onward : Onward start later) : Onward start later.step.2
  | run {later after : Machine geometry} {fuel : Nat} {outcome : Except StepError UInt64}
      (onward : Onward start later) (ended : later.run? fuel = some (outcome, after)) :
      Onward start after
  | runLimited {later : Machine geometry} (maximum : UInt64) (onward : Onward start later) :
      Onward start (later.runLimited maximum).2
  | loadWords {later after : Machine geometry} {words : List Word} {error : LoadError}
      (onward : Onward start later) (refused : later.loadWords words = (.error error, after)) :
      Onward start after
  | loadProgram {later after : Machine geometry} {program : Program} {error : LoadError}
      (onward : Onward start later)
      (refused : later.loadProgram program = (.error error, after)) : Onward start after
  | takeOutput {later : Machine geometry} (onward : Onward start later) :
      Onward start later.takeOutput.2
  | setRegisters {later : Machine geometry} (registers : Registers)
      (onward : Onward start later) : Onward start { later with registers }
  | setData {later : Machine geometry} (data : Bank geometry.dataBanks geometry.bankWords)
      (onward : Onward start later) : Onward start { later with data }

/-- A machine that does nothing until it is loaded or reset.  A bounded run has nothing to
do either; all it can trip over is the count to stop at. -/
structure Stopped (machine : Machine geometry) : Prop where
  step : machine.step = (.error (.notRunning .halted), machine)
  run : ∀ fuel, machine.run? fuel = some (.ok 0, machine)
  runLimited : ∀ maximum : UInt64, machine.cycles.toNat + maximum.toNat < countLimit →
    machine.runLimited maximum = (.ok 0, machine)
  overflow : ∀ maximum : UInt64, countLimit ≤ machine.cycles.toNat + maximum.toNat →
    machine.runLimited maximum = (.error .overflow, machine)
  loadWords : ∀ words after, machine.loadWords words = (.ok (), after) → after.state = .running
  loadProgram : ∀ program after, machine.loadProgram program = (.ok (), after) →
    after.state = .running
  reset : machine.reset.state = .running

theorem step_of_halted (halted : machine.state = .halted) :
    machine.step = (.error (.notRunning .halted), machine) := by
  rw [step, halted]

theorem runFor_of_halted (halted : machine.state = .halted) (count : Nat) :
    machine.runFor count = (.ok (), machine) := by
  cases count with
  | zero => rfl
  | succ count => rw [runFor, halted]

theorem run_of_halted (halted : machine.state = .halted) (fuel : Nat) :
    machine.run? fuel = some (.ok 0, machine) := by
  rw [run?, runFor_of_halted halted]
  dsimp only
  rw [halted]
  dsimp only
  rw [UInt64.sub_self]
  rfl

theorem runLimited_of_halted (halted : machine.state = .halted) {maximum : UInt64}
    (fits : machine.cycles.toNat + maximum.toNat < countLimit) :
    machine.runLimited maximum = (.ok 0, machine) := by
  rw [runLimited_of_fits fits, runFor_of_halted halted]
  dsimp only
  rw [UInt64.sub_self]
  rfl

/-- Whatever it answers, a bounded run leaves a halted machine alone. -/
theorem snd_runLimited_of_halted (halted : machine.state = .halted) (maximum : UInt64) :
    (machine.runLimited maximum).2 = machine := by
  obtain ⟨count, same⟩ := exists_runFor_eq_runLimited maximum machine
  rw [same, runFor_of_halted halted]

theorem running_of_loadWords {words : List Word} {after : Machine geometry}
    (loaded : machine.loadWords words = (.ok (), after)) : after.state = .running := by
  rw [loadWords] at loaded
  split at loaded
  · cases loaded
  · cases loaded
    rfl

theorem running_of_loadProgram {program : Program} {after : Machine geometry}
    (loaded : machine.loadProgram program = (.ok (), after)) : after.state = .running :=
  running_of_loadWords (loadWords_of_loadProgram loaded)

theorem stopped_of_halted (halted : machine.state = .halted) : machine.Stopped where
  step := step_of_halted halted
  run := run_of_halted halted
  runLimited _ := runLimited_of_halted halted
  overflow _ := runLimited_of_overflow
  loadWords _ _ := running_of_loadWords
  loadProgram _ _ := running_of_loadProgram
  reset := rfl

/-- Nothing but loading or a reset sets a halted machine going again. -/
theorem Onward.halted {start later : Machine geometry} (onward : start.Onward later)
    (halted : start.state = .halted) : later.state = .halted := by
  induction onward with
  | here => exact halted
  | step _ ih => rwa [step_of_halted ih]
  | run _ ended ih =>
      rw [run_of_halted ih] at ended
      cases ended
      exact ih
  | runLimited maximum _ ih => rwa [snd_runLimited_of_halted ih]
  | loadWords _ refused ih => rwa [eq_of_loadWords_error refused]
  | loadProgram _ refused ih => rwa [eq_of_loadProgram_error refused]
  | takeOutput _ ih | setRegisters _ _ ih | setData _ _ ih => exact ih

/-! ## Faults -/

/-- A step fails exactly with what is wrong with the word at the counter.  Then the
machine has halted and is otherwise as it was, and it stays halted whatever is done
with it, until it is loaded or reset. -/
theorem Reachable.fault_atomic_final (reachable : machine.Reachable)
    (running : machine.state = .running) :
    (∀ error, machine.step.1 = .error error ↔ error.Befalls machine.view) ∧
      ∀ error, machine.step.1 = .error error →
        machine.step.2.HaltedFrom machine ∧
          ∀ later, machine.step.2.Onward later → later.Stopped := by
  constructor
  · intro error
    rw [reachable.represents.step.1]
    exact WordMachine.step_eq_error_iff running
  · intro error failed
    have after := reachable.haltedFrom running failed
    exact ⟨after, fun later onward => stopped_of_halted (onward.halted after.state)⟩

/-- A jump on zero, taken, to the address behind the last one. -/
theorem fault_atomic_final_jump :
    ∃ machine : Machine {}, machine.Reachable ∧ machine.state = .running ∧
      StepError.Befalls machine.view (.mainAddress 64 63) ∧
      machine.step.1 = .error (.mainAddress 64 63) ∧ machine.step.2.HaltedFrom machine ∧
      machine.step.2.Stopped := by
  obtain ⟨machine, reachable, represents⟩ := exists_represents_load [0x2200000001#40] (by decide)
  have running : machine.state = .running := represents.running
  have failed : machine.step.1 = .error (.mainAddress 64 63) := by
    rw [represents.step.1]
    decide +kernel
  obtain ⟨exactly, halts⟩ := reachable.fault_atomic_final running
  obtain ⟨after, stopped⟩ := halts _ failed
  exact ⟨machine, reachable, running, (exactly _).mp failed, failed, after, stopped _ .here⟩

/-- After an idle word and one that is no instruction, the machine has halted and the largest
bound asks for a count to stop at that there is not. -/
theorem halted_run_overflows :
    ¬∀ (geometry : Geometry) (machine : Machine geometry), machine.Reachable →
      machine.state = .running → ∀ error, machine.step.1 = .error error →
        ∀ later, machine.step.2.Onward later →
          ∀ maximum, later.runLimited maximum = (.ok 0, later) := by
  intro reaches
  obtain ⟨loaded, reachable, starts⟩ :=
    exists_represents_load [0x0000000000#40, 0xEE00000000#40] (by decide)
  have represents := starts.step.2
  have running : loaded.step.2.state = .running := by
    rw [represents.running]
    decide +kernel
  have failed : loaded.step.2.step.1 = .error (.unknownOpcode 0xEE 63) := by
    rw [represents.step.1]
    decide +kernel
  have cycles : loaded.step.2.step.2.cycles = 1 := by
    rw [represents.step.2.cycles]
    decide +kernel
  have overflow : countLimit ≤
      loaded.step.2.step.2.cycles.toNat + (0xFFFFFFFFFFFFFFFF : UInt64).toNat := by
    rw [cycles]
    decide
  have run := reaches {} _ reachable.step running _ failed _ .here 0xFFFFFFFFFFFFFFFF
  rw [runLimited_of_overflow overflow] at run
  cases run

end Machine

end BitSerial
