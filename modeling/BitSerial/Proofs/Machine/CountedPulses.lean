import BitSerial.Proofs.Machine.ExactTiming
import BitSerial.Proofs.Machine.Faults

/-!
# Counted pulses

Every handler that works on the lines says how many pulses it took.  A step counts the
wait for its word and the forty pulses of fetching it as they happen, and what its
handlers say when the instruction is completed.  So a step that fails must not have come
to a handler; a conditional jump that is taken to an address outside main memory has, and
the forty pulses of its scan are not counted.
-/

namespace BitSerial

/-- The word at the counter is a conditional jump that is taken, to an address that main
memory does not have. -/
inductive WordMachine.JumpsOut {geometry : Geometry} (machine : WordMachine geometry) : Prop
  | onZero {operand : Operand}
      (decoded : Instruction.decode (machine.main machine.counter) = .ok (.wide .jza operand))
      (zero : machine.a = 0) (outside : geometry.mainWords ≤ machine.base + operand.toNat)
  | onNegative {operand : Operand}
      (decoded : Instruction.decode (machine.main machine.counter) = .ok (.wide .jna operand))
      (negative : machine.a.msb = true)
      (outside : geometry.mainWords ≤ machine.base + operand.toNat)

namespace Machine

variable {geometry : Geometry} {machine : Machine geometry}

/-! ## What handlers report -/

/-- What the handler of an operation without an operand reports, if it has one. -/
def plainReports (machine : Machine geometry) : PlainOp → List Nat
  | .nop | .hlt => []
  | .add => [(Arithmetic.add machine.registers).ticks]
  | .neg => [(Arithmetic.negate machine.registers).ticks]
  | .shl => [(Arithmetic.shiftLeft machine.registers).ticks]
  | .shr => [(Arithmetic.shiftRight machine.registers).ticks]
  | .and => [(Arithmetic.logic and machine.registers).ticks]
  | .orr => [(Arithmetic.logic or machine.registers).ticks]
  | .xor => [(Arithmetic.logic xor machine.registers).ticks]
  | .mul => [(Arithmetic.multiply machine.registers).ticks]
  | .pra => [(Arithmetic.scan machine.registers).ticks]

/-- What the handler of an operation with an operand reports, if there is one and the
machine has the word that it works on. -/
def wideReports (machine : Machine geometry) (op : WideOp) (operand : Operand) : List Nat :=
  match op with
  | .lai => [(Arithmetic.loadImmediate operand .lowFirst machine.registers.a).ticks]
  | .lbi => [(Arithmetic.loadImmediate operand .lowFirst machine.registers.b).ticks]
  | .lea => [(Arithmetic.loadImmediate operand .highFirst machine.registers.a).ticks]
  | .leb => [(Arithmetic.loadImmediate operand .highFirst machine.registers.b).ticks]
  | .rnd => [(Arithmetic.round operand.toNat machine.registers).ticks]
  | .mla => [(Arithmetic.multiplyAdd operand.toNat machine.registers).ticks]
  | .ldp =>
      match machine.mainPlace? operand.toNat with
      | .ok word => [(Transfer.load Bank.sole word machine.registers.a machine.main).ticks]
      | .error _ => []
  | .stp =>
      match machine.mainPlace? operand.toNat with
      | .ok word => [(Transfer.storeProgram Bank.sole word machine.registers.a machine.main).ticks]
      | .error _ => []
  | .jmp | .jmpa => []
  | .jza | .jna => [(Arithmetic.scan machine.registers).ticks]

/-- What the transfer of an operation on a data word reports, if the machine has the
word. -/
def dataReports (machine : Machine geometry) (op : DataOp) (address : DataAddress) : List Nat :=
  match machine.dataPlace? address with
  | .error _ => []
  | .ok (bank, word) =>
      match op with
      | .sto => [(Transfer.store bank word machine.registers.a machine.data).ticks]
      | .stb => [(Transfer.store bank word machine.registers.b machine.data).ticks]
      | .stc => [(Transfer.storeClearing bank word machine.registers.a machine.data).ticks]
      | .lda => [(Transfer.load bank word machine.registers.a machine.data).ticks]
      | .ldb => [(Transfer.load bank word machine.registers.b machine.data).ticks]
      | .col => [(Transfer.collate bank word machine.registers machine.data).ticks]

/-- What the handlers report that run to their end when an instruction is executed. -/
def reports (machine : Machine geometry) : Instruction → List Nat
  | .plain op => machine.plainReports op
  | .wide op operand => machine.wideReports op operand
  | .data op address => machine.dataReports op address

/-- What the handlers report that run to their end in a step.  A word that is no
instruction has none. -/
def stepReports (machine : Machine geometry) : List Nat :=
  match Instruction.decode machine.fetch.1 with
  | .ok instruction => machine.fetch.2.reports instruction
  | .error _ => []

/-- The pulses of a step: the wait for its word, the word itself, and what the handlers
report. -/
def stepPulses (machine : Machine geometry) : Nat :=
  machine.main.waitFor Bank.sole machine.counter + 40 + machine.stepReports.sum

/-- Executing counts nothing yet, and if it succeeds it asks for what the handlers
report. -/
structure Asks (executed : Executed geometry) (ticks : UInt64) (reports : List Nat) : Prop where
  ticks : executed.2.ticks = ticks
  flow : ∀ flow, executed.1 = .ok flow → flow.ticks = reports.sum

theorem asks_proceed (machine : Machine geometry) {pulses : Nat} {reports : List Nat}
    (asked : pulses = reports.sum) : Asks (proceed pulses machine) machine.ticks reports where
  ticks := rfl
  flow := by
    rintro _ ⟨⟩
    exact asked

theorem asks_error (machine : Machine geometry) (error : StepError) (reports : List Nat) :
    Asks (.error error, machine) machine.ticks reports where
  ticks := rfl
  flow := nofun

theorem asks_onRegisters (machine : Machine geometry) (operation : Registers → Timed Registers) :
    Asks (machine.onRegisters operation) machine.ticks
      [(operation machine.registers).ticks] := by
  rw [onRegisters]
  generalize operation machine.registers = done
  exact asks_proceed { machine with registers := done.result } rfl

theorem asks_onRegister (machine : Machine geometry) (name : RegisterName)
    (operation : DelayLine 40 → Timed (DelayLine 40)) :
    Asks (machine.onRegister name operation) machine.ticks
      [(operation (machine.registers.get name)).ticks] := by
  rw [onRegister]
  generalize operation (machine.registers.get name) = done
  exact asks_proceed { machine with registers := machine.registers.set name done.result } rfl

theorem asks_onMain (machine : Machine geometry)
    (transfer : DelayLine 40 → Bank 1 geometry.mainWords →
      Timed (DelayLine 40 × Bank 1 geometry.mainWords)) :
    Asks (machine.onMain transfer) machine.ticks
      [(transfer machine.registers.a machine.main).ticks] := by
  rw [onMain]
  generalize transfer machine.registers.a machine.main = done
  exact asks_proceed { machine with
    registers := machine.registers.set .a done.result.1
    main := done.result.2 } rfl

theorem asks_onData (machine : Machine geometry) (name : RegisterName)
    (transfer : DelayLine 40 → Bank geometry.dataBanks geometry.bankWords →
      Timed (DelayLine 40 × Bank geometry.dataBanks geometry.bankWords)) :
    Asks (machine.onData name transfer) machine.ticks
      [(transfer (machine.registers.get name) machine.data).ticks] := by
  rw [onData]
  generalize transfer (machine.registers.get name) machine.data = done
  exact asks_proceed { machine with
    registers := machine.registers.set name done.result.1
    data := done.result.2 } rfl

theorem asks_collate (machine : Machine geometry) (bank : Fin geometry.dataBanks)
    (word : Fin geometry.bankWords) :
    Asks (machine.collate bank word) machine.ticks
      [(Transfer.collate bank word machine.registers machine.data).ticks] := by
  rw [collate]
  generalize Transfer.collate bank word machine.registers machine.data = done
  exact asks_proceed { machine with registers := done.result.1, data := done.result.2 } rfl

theorem asks_print (machine : Machine geometry) :
    Asks machine.print machine.ticks [(Arithmetic.scan machine.registers).ticks] := by
  rw [print]
  generalize Arithmetic.scan machine.registers = done
  exact asks_proceed { machine with
    registers := done.result.2
    output := machine.output.push done.result.1.value } rfl

theorem asks_jumpTo (machine : Machine geometry) (address : Nat) {pulses : Nat}
    {reports : List Nat} (asked : pulses = reports.sum) :
    Asks (machine.jumpTo address pulses) machine.ticks reports := by
  rw [jumpTo]
  split
  · constructor
    · rfl
    · rintro _ ⟨⟩
      exact asked
  · exact asks_error machine _ _

theorem asks_jumpIf (machine : Machine geometry) (condition : Arithmetic.Scan → Bool)
    (address : Nat) :
    Asks (machine.jumpIf condition address) machine.ticks
      [(Arithmetic.scan machine.registers).ticks] := by
  rw [jumpIf]
  generalize Arithmetic.scan machine.registers = done
  split
  · exact asks_jumpTo { machine with registers := done.result.2 } address rfl
  · exact asks_proceed { machine with registers := done.result.2 } rfl

/-! ## Instructions ask for what their handlers report -/

theorem asks_executePlain (machine : Machine geometry) (op : PlainOp) :
    Asks (machine.executePlain op) machine.ticks (machine.plainReports op) := by
  cases op with
  | nop => exact asks_proceed machine rfl
  | hlt => exact asks_proceed { machine with state := .halted } rfl
  | add | neg | shl | shr | and | orr | xor | mul => exact asks_onRegisters machine _
  | pra => exact asks_print machine

theorem asks_executeWide (machine : Machine geometry) (op : WideOp) (operand : Operand) :
    Asks (machine.executeWide op operand) machine.ticks (machine.wideReports op operand) := by
  cases op with
  | lai | lea => exact asks_onRegister machine .a _
  | lbi | leb => exact asks_onRegister machine .b _
  | rnd | mla => exact asks_onRegisters machine _
  | ldp | stp =>
      rw [executeWide, wideReports]
      cases machine.mainPlace? operand.toNat with
      | ok word => exact asks_onMain machine _
      | error error => exact asks_error machine error []
  | jmp | jmpa => exact asks_jumpTo machine _ rfl
  | jza | jna =>
      rw [executeWide]
      exact asks_jumpIf machine _ _

theorem asks_executeData (machine : Machine geometry) (op : DataOp) (address : DataAddress) :
    Asks (machine.executeData op address) machine.ticks (machine.dataReports op address) := by
  rw [executeData, dataReports]
  cases machine.dataPlace? address with
  | error error => exact asks_error machine error []
  | ok place =>
      obtain ⟨bank, word⟩ := place
      cases op with
      | sto | stc | lda => exact asks_onData machine .a _
      | stb | ldb => exact asks_onData machine .b _
      | col => exact asks_collate machine bank word

theorem asks_execute (machine : Machine geometry) (instruction : Instruction) :
    Asks (machine.execute instruction) machine.ticks (machine.reports instruction) := by
  cases instruction with
  | plain op => exact asks_executePlain machine op
  | wide op operand => exact asks_executeWide machine op operand
  | data op address => exact asks_executeData machine op address

/-! ## Steps -/

theorem ticks_fetched (machine : Machine geometry) :
    machine.fetch.2.ticks =
      machine.ticks + UInt64.ofNat (machine.main.waitFor Bank.sole machine.counter + 40) :=
  rfl

theorem stepReports_of_decode {instruction : Instruction}
    (decoded : Instruction.decode machine.fetch.1 = .ok instruction) :
    machine.stepReports = machine.fetch.2.reports instruction := by
  rw [stepReports, decoded]

/-- A step that succeeds counts all of its pulses. -/
theorem ticks_of_step_ok {instruction : Instruction} {after : Machine geometry}
    (stepped : machine.step = (.ok instruction, after)) :
    after.ticks = machine.ticks + UInt64.ofNat machine.stepPulses := by
  obtain ⟨decoded, flow, executed, outcome, rfl⟩ := decode_of_step stepped
  have asks := asks_execute machine.fetch.2 instruction
  rw [outcome, ← stepReports_of_decode decoded] at asks
  show executed.ticks + UInt64.ofNat flow.ticks = _
  rw [asks.ticks, asks.flow flow rfl, ticks_fetched, UInt64.add_assoc, ← UInt64.ofNat_add]
  rfl

/-- A step that fails counts the fetch alone. -/
theorem Reachable.ticks_of_step_error (reachable : machine.Reachable)
    (running : machine.state = .running) {error : StepError}
    (failed : machine.step.1 = .error error) :
    machine.step.2.ticks =
      machine.ticks + UInt64.ofNat (machine.main.waitFor Bank.sole machine.counter + 40) := by
  rw [eq_of_step_error reachable.represents.registers running failed]
  exact machine.ticks_fetched

/-- The jump asks for an address that is not there. -/
theorem befalls_of_jumpsOut {machine : WordMachine geometry} (jumpsOut : machine.JumpsOut) :
    ∃ address, StepError.Befalls machine (.mainAddress address machine.counter) := by
  cases jumpsOut with
  | onZero decoded zero outside => exact ⟨_, .mainAddress decoded ⟨zero, rfl⟩ outside⟩
  | onNegative decoded negative outside => exact ⟨_, .mainAddress decoded ⟨negative, rfl⟩ outside⟩

theorem Reachable.fetch_view (reachable : machine.Reachable) :
    machine.fetch.1 = machine.view.main machine.view.counter :=
  reachable.represents.fetch.1

/-- A conditional jump lets the accumulator pass, wherever it goes. -/
theorem stepReports_of_conditional {op : WideOp} {operand : Operand}
    (conditional : op = .jza ∨ op = .jna)
    (decoded : Instruction.decode machine.fetch.1 = .ok (.wide op operand)) :
    machine.stepReports = [40] := by
  rw [stepReports_of_decode decoded]
  rcases conditional with rfl | rfl
  all_goals
    exact congrArg (fun ticks => [ticks]) (Arithmetic.ticks_scan machine.fetch.2.registers)

theorem Reachable.stepReports_of_jumpsOut (reachable : machine.Reachable)
    (jumpsOut : machine.view.JumpsOut) : machine.stepReports = [40] := by
  cases jumpsOut with
  | onZero decoded =>
      exact stepReports_of_conditional (.inl rfl) (by rwa [reachable.fetch_view])
  | onNegative decoded =>
      exact stepReports_of_conditional (.inr rfl) (by rwa [reachable.fetch_view])

/-- Whatever else goes wrong goes wrong before a handler runs. -/
theorem Reachable.stepReports_of_befalls (reachable : machine.Reachable) {error : StepError}
    (befalls : error.Befalls machine.view) :
    machine.stepReports = [] ∨ machine.view.JumpsOut := by
  have fetched := reachable.fetch_view
  cases befalls with
  | unknownOpcode unknown =>
      have decoded := Instruction.decode_eq_error_iff.mpr
        ⟨(rfl : (UnknownOpcode.mk (Word.opcode (machine.view.main machine.view.counter))).byte = _),
          unknown⟩
      left
      rw [stepReports, fetched, decoded]
  | @dataAddress op address decoded outside =>
      have refused : machine.fetch.2.dataPlace? address =
          .error (.dataAddress address.bank.toNat address.word.toNat machine.counter) := by
        rw [dataPlace?]
        exact dif_neg (by omega)
      rw [← fetched] at decoded
      left
      rw [stepReports_of_decode decoded, reports, dataReports, refused]
  | @mainAddress op operand address decoded needed outside =>
      cases op with
      | lai | lbi | lea | leb | rnd | mla => exact needed.elim
      | ldp | stp =>
          have refused : machine.fetch.2.mainPlace? operand.toNat =
              .error (.mainAddress operand.toNat machine.counter) := by
            rw [mainPlace?]
            exact dif_neg (Nat.not_lt_of_le (needed ▸ outside))
          rw [← fetched] at decoded
          left
          rw [stepReports_of_decode decoded, reports, wideReports, refused]
      | jmp | jmpa =>
          rw [← fetched] at decoded
          exact .inl (stepReports_of_decode decoded)
      | jza => exact .inr (.onZero decoded needed.1 (needed.2 ▸ outside))
      | jna => exact .inr (.onNegative decoded needed.1 (needed.2 ▸ outside))

/-- What a step of a running machine adds to the count: all of its pulses, unless it is
a jump out of main memory. -/
theorem Reachable.ticks_step_cases (reachable : machine.Reachable)
    (running : machine.state = .running) :
    (¬ machine.view.JumpsOut ∧
        machine.step.2.ticks = machine.ticks + UInt64.ofNat machine.stepPulses) ∨
      (machine.view.JumpsOut ∧
        machine.step.2.ticks + 40 = machine.ticks + UInt64.ofNat machine.stepPulses) := by
  have outcome : machine.step.1 = machine.view.step.1 := reachable.represents.step.1
  have viewRunning : machine.view.state = .running := running
  rcases stepped : machine.step with ⟨result, after⟩
  cases result with
  | ok instruction =>
      left
      refine ⟨fun jumpsOut => ?_, ticks_of_step_ok stepped⟩
      obtain ⟨address, befalls⟩ := befalls_of_jumpsOut jumpsOut
      rw [stepped, (WordMachine.step_eq_error_iff viewRunning).mpr befalls] at outcome
      cases outcome
  | error error =>
      have failed : machine.step.1 = .error error := congrArg Prod.fst stepped
      have ticks := reachable.ticks_of_step_error running failed
      rw [outcome] at failed
      have befalls := (WordMachine.step_eq_error_iff viewRunning).mp failed
      rw [stepped] at ticks
      by_cases jumpsOut : machine.view.JumpsOut
      · right
        refine ⟨jumpsOut, ?_⟩
        rw [ticks, stepPulses, reachable.stepReports_of_jumpsOut jumpsOut, List.sum_singleton,
          UInt64.ofNat_add (_ + 40) 40, ← UInt64.add_assoc]
        rfl
      · left
        have none := (reachable.stepReports_of_befalls befalls).resolve_right jumpsOut
        refine ⟨jumpsOut, ?_⟩
        rw [ticks, stepPulses, none]
        rfl

/-- A step counts exactly the pulses of its wait, its word and its handlers, unless a
conditional jump is taken out of main memory.  That one fails behind the scan of the
accumulator, and the forty pulses of the scan are not counted. -/
theorem Reachable.counted_pulses (reachable : machine.Reachable)
    (running : machine.state = .running) :
    (machine.step.2.ticks - machine.ticks = UInt64.ofNat machine.stepPulses ↔
        ¬ machine.view.JumpsOut) ∧
      (machine.view.JumpsOut →
        (∃ address, machine.step.1 = .error (.mainAddress address machine.counter)) ∧
          machine.stepReports = [40] ∧
          machine.step.2.ticks - machine.ticks =
            UInt64.ofNat (machine.main.waitFor Bank.sole machine.counter + 40)) := by
  constructor
  · rw [UInt64.sub_eq_iff_eq_add, UInt64.add_comm]
    rcases reachable.ticks_step_cases running with ⟨inside, all⟩ | ⟨jumpsOut, short⟩
    · exact iff_of_true all inside
    · refine iff_of_false (fun all => ?_) (not_not_intro jumpsOut)
      rw [all, UInt64.add_eq_left] at short
      exact absurd short (by decide)
  · intro jumpsOut
    obtain ⟨address, befalls⟩ := befalls_of_jumpsOut jumpsOut
    have failed : machine.step.1 = .error (.mainAddress address machine.counter) := by
      rw [reachable.represents.step.1]
      exact (WordMachine.step_eq_error_iff running).mpr befalls
    refine ⟨⟨address, failed⟩, reachable.stepReports_of_jumpsOut jumpsOut, ?_⟩
    rw [UInt64.sub_eq_iff_eq_add, UInt64.add_comm]
    exact reachable.ticks_of_step_error running failed

/-- A loaded program starts without a wait. -/
theorem LoadedFrom.waitFor_counter {before : Machine geometry} {program : List Word}
    (loaded : machine.LoadedFrom before program) :
    machine.main.waitFor Bank.sole machine.counter = 0 := by
  have aligned : machine.main.position Bank.sole % 40 = 0 := by
    rw [loaded.position]
    exact Nat.mul_mod_left _ 40
  have clock : machine.main.clock Bank.sole = machine.counter := by
    rw [Bank.clock, loaded.position, loaded.counter]
    exact Nat.mul_div_cancel _ (by decide)
  rw [Bank.waitFor_of_aligned aligned, clock, Nat.add_sub_cancel_left, Nat.mod_self, Nat.zero_mul]

/-- A standard machine with one word loaded. -/
theorem exists_loaded (word : Word) :
    ∃ machine : Machine {}, machine.Reachable ∧ machine.state = .running ∧
      machine.view = (WordMachine.blank ⟨0, Geometry.valid_standard.mainWords_pos⟩).load [word] ∧
      machine.main.waitFor Bank.sole machine.counter = 0 := by
  have built : build? {} = .ok (fresh Geometry.valid_standard) := rfl
  obtain ⟨machine, loaded⟩ :
      ∃ machine, (fresh Geometry.valid_standard).loadWords [word] = (.ok (), machine) :=
    ⟨_, rfl⟩
  have representsFresh := represents_fresh Geometry.valid_standard
  have represents := representsFresh.loadWords loaded
  exact ⟨machine, .loadWords (.built built) loaded, represents.running, represents.view_eq,
    (representsFresh.loadedFrom loaded).waitFor_counter⟩

/-- A jump on zero to itself counts its fetch and its scan; to the address behind the last
one it counts the fetch alone. -/
theorem counted_pulses_jump :
    ∃ inside outside : Machine {},
      inside.Reachable ∧ inside.state = .running ∧ ¬ inside.view.JumpsOut ∧
      inside.step.1 = .ok (.wide .jza 0) ∧ inside.step.2.ticks - inside.ticks = 80 ∧
      outside.Reachable ∧ outside.state = .running ∧ outside.view.JumpsOut ∧
      outside.step.1 = .error (.mainAddress 64 63) ∧
      outside.step.2.ticks - outside.ticks = 40 := by
  obtain ⟨inside, insideReachable, insideRunning, insideView, insideReady⟩ :=
    exists_loaded 0x2200000000#40
  obtain ⟨outside, outsideReachable, outsideRunning, outsideView, outsideReady⟩ :=
    exists_loaded 0x2200000001#40
  have stepped : inside.step.1 = .ok (.wide .jza 0) := by
    rw [insideReachable.represents.step.1, insideView]
    decide +kernel
  have stays : ¬ inside.view.JumpsOut := by
    intro jumpsOut
    obtain ⟨⟨_, failed⟩, _⟩ := (insideReachable.counted_pulses insideRunning).2 jumpsOut
    rw [stepped] at failed
    cases failed
  have decoded : Instruction.decode inside.fetch.1 = .ok (.wide .jza 0) := by
    rw [insideReachable.fetch_view, insideView]
    decide +kernel
  have pulses : inside.stepPulses = 80 := by
    rw [stepPulses, insideReady, stepReports_of_conditional (.inl rfl) decoded]
    rfl
  have counted := (insideReachable.counted_pulses insideRunning).1.mpr stays
  have jumpsOut : outside.view.JumpsOut := by
    rw [outsideView]
    have fetched : Instruction.decode 0x2200000001#40 = .ok (.wide .jza 1) := by decide +kernel
    exact .onZero fetched rfl (by decide)
  have failed : outside.step.1 = .error (.mainAddress 64 63) := by
    rw [outsideReachable.represents.step.1, outsideView]
    decide +kernel
  obtain ⟨-, -, short⟩ := (outsideReachable.counted_pulses outsideRunning).2 jumpsOut
  rw [pulses] at counted
  rw [outsideReady] at short
  exact ⟨inside, outside, insideReachable, insideRunning, stays, stepped, counted,
    outsideReachable, outsideRunning, jumpsOut, failed, short⟩

/-- So a step may take pulses that it does not count. -/
theorem uncounted_pulses :
    ¬ ∀ (geometry : Geometry) (machine : Machine geometry), machine.Reachable →
      machine.state = .running →
        machine.step.2.ticks - machine.ticks = UInt64.ofNat machine.stepPulses := by
  intro counted
  obtain ⟨machine, reachable, running, view, ready⟩ := exists_loaded 0x2200000001#40
  have failed : machine.step.1 = .error (.mainAddress 64 63) := by
    rw [reachable.represents.step.1, view]
    decide +kernel
  have decoded : Instruction.decode machine.fetch.1 = .ok (.wide .jza 1) := by
    rw [reachable.fetch_view, view]
    decide +kernel
  have pulses : machine.stepPulses = 80 := by
    rw [stepPulses, ready, stepReports_of_conditional (.inl rfl) decoded]
    rfl
  have ticks := reachable.ticks_of_step_error running failed
  have all := counted {} machine reachable running
  rw [UInt64.sub_eq_iff_eq_add, ticks, ready, pulses, UInt64.add_comm, UInt64.add_left_inj] at all
  exact absurd all (by decide)

/-! ## Runs -/

/-- The pulses of at most a number of steps. -/
def runPulses : Nat → Machine geometry → Nat
  | 0, _ => 0
  | count + 1, machine =>
      match machine.state with
      | .halted => 0
      | .running =>
          machine.stepPulses +
            match machine.step with
            | (.ok _, after) => runPulses count after
            | (.error _, _) => 0

/-- A run overlooks at most forty pulses, those of a last step that jumps out of main
memory. -/
theorem Reachable.ticks_runFor (reachable : machine.Reachable) (count : Nat) :
    (machine.runFor count).2.ticks = machine.ticks + UInt64.ofNat (runPulses count machine) ∨
      ((machine.runFor count).2.ticks + 40 =
          machine.ticks + UInt64.ofNat (runPulses count machine) ∧
        ∃ before : Machine geometry, before.Reachable ∧ before.view.JumpsOut ∧
          before.step.2 = (machine.runFor count).2) := by
  induction count generalizing machine with
  | zero => exact .inl (UInt64.add_zero _).symm
  | succ count ih =>
      rw [runFor, runPulses]
      cases running : machine.state with
      | halted => exact .inl (UInt64.add_zero _).symm
      | running =>
          have counted := reachable.ticks_step_cases running
          dsimp only
          rcases stepped : machine.step with ⟨result, after⟩
          cases result with
          | ok instruction =>
              have next : after.Reachable := by
                have next := reachable.step
                rwa [stepped] at next
              have all := ticks_of_step_ok stepped
              dsimp only
              rw [UInt64.ofNat_add, ← UInt64.add_assoc, ← all]
              exact ih next
          | error error =>
              rw [stepped] at counted
              rcases counted with ⟨_, all⟩ | ⟨jumpsOut, short⟩
              · exact .inl all
              · exact .inr ⟨short, machine, reachable, jumpsOut, congrArg Prod.snd stepped⟩

end Machine

end BitSerial
