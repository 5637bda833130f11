import BitSerial.Proofs.Arithmetic.Multiplication
import BitSerial.Proofs.Machine.InstructionSet
import BitSerial.Proofs.Transfer.Words

/-!
# Steps of the machine are steps of the instruction set

A machine represents a state of the instruction set when its registers, its
program line and its data banks are at rest with the state's words on them,
wherever the heads are.  Every operation then leaves a machine that represents
what the instruction set says, and so does a step.
-/

namespace BitSerial.Machine

variable {geometry : Geometry}

/-- The machine as its instructions see it: words read without a pulse. -/
def view (machine : Machine geometry) : WordMachine geometry where
  a := machine.registers.peek .a
  b := machine.registers.peek .b
  s := machine.registers.peek .s
  main := machine.main.peekWord Bank.sole
  data := machine.data.peekWord
  counter := machine.counter
  base := machine.base
  state := machine.state
  cycles := machine.cycles
  output := machine.output
  last := machine.last

/-- A machine at rest between two instructions, with the words of a state of the
instruction set.  The program line is between two words; data banks may be
anywhere. -/
structure Represents (machine : Machine geometry) (state : WordMachine geometry) : Prop where
  registers : machine.registers.Hold state.a state.b state.s
  main : machine.main.Keeps fun _ => state.main
  mainOrder : machine.main.order = .highFirst
  mainAligned : machine.main.position Bank.sole % 40 = 0
  data : machine.data.Keeps state.data
  dataOrder : machine.data.order = .lowFirst
  counter : machine.counter = state.counter
  base : machine.base = state.base
  base_le : state.base ≤ geometry.mainWords
  running : machine.state = state.state
  cycles : machine.cycles = state.cycles
  output : machine.output = state.output
  last : machine.last = state.last

/-- An executed instruction asks for what the instruction set says, and leaves a
machine that represents what the instruction set says. -/
structure Follows (executed : Executed geometry) (outcome : WordMachine.Outcome geometry) :
    Prop where
  jump : executed.1.map Flow.jump = outcome.1
  represents : executed.2.Represents outcome.2

variable {machine : Machine geometry} {state : WordMachine geometry}

/-- A machine at rest represents one state, the one that is read off it. -/
theorem Represents.view_eq (represents : machine.Represents state) : machine.view = state := by
  have registers := represents.registers
  apply WordMachine.ext
  · exact registers.peek .a
  · exact registers.peek .b
  · exact registers.peek .s
  · exact funext (represents.main.word Bank.sole)
  · exact funext fun bank => funext (represents.data.word bank)
  · exact represents.counter
  · exact represents.base
  · exact represents.running
  · exact represents.cycles
  · exact represents.output
  · exact represents.last

/-! ## Changing one part -/

theorem Represents.setRegisters (represents : machine.Represents state) {registers : Registers}
    {a b s : Word} (hold : registers.Hold a b s) :
    ({ machine with registers } : Machine geometry).Represents { state with a, b, s } :=
  { represents with registers := hold }

theorem Represents.setData (represents : machine.Represents state)
    {bank : Bank geometry.dataBanks geometry.bankWords}
    {content : Fin geometry.dataBanks → Fin geometry.bankWords → Word}
    (keeps : bank.Keeps content) (order : bank.order = machine.data.order) :
    ({ machine with data := bank } : Machine geometry).Represents { state with data := content } :=
  { represents with data := keeps, dataOrder := order.trans represents.dataOrder }

theorem Represents.setMain (represents : machine.Represents state)
    {bank : Bank 1 geometry.mainWords}
    {content : Fin geometry.mainWords → Word} (keeps : bank.Keeps fun _ => content)
    (order : bank.order = machine.main.order) (aligned : bank.position Bank.sole % 40 = 0) :
    ({ machine with main := bank } : Machine geometry).Represents { state with main := content } :=
  { represents with
    main := keeps
    mainOrder := order.trans represents.mainOrder
    mainAligned := aligned }

/-- Behind a word of the program line the head is between two words again. -/
theorem behind_mod (word words : Nat) : (word * 40 + 40) % (words * 40) % 40 = 0 := by
  rw [Nat.mod_mod_of_dvd _ (Nat.dvd_mul_left 40 words)]
  omega

/-- Exchanging a word of a bank with one channel exchanges it in the only row. -/
theorem exchange_sole {words : Nat} (word : Fin words) (value : Word)
    (content : Fin words → Word) :
    Bank.exchange Bank.sole word value (fun _ => content) =
      fun _ => Function.update content word value := by
  funext channel
  have only : channel = Bank.sole := Subsingleton.elim channel Bank.sole
  rw [only, Bank.exchange, Function.update_self]

/-! ## Operations -/

theorem Represents.proceed (represents : machine.Represents state) (ticks : Nat) :
    Follows (Machine.proceed ticks machine) state.next :=
  ⟨rfl, represents⟩

theorem Represents.onRegisters (represents : machine.Represents state)
    {operation : Registers → Timed Registers} {a b s : Word}
    (hold : (operation machine.registers).result.Hold a b s) :
    Follows (machine.onRegisters operation)
      ({ state with a, b, s } : WordMachine geometry).next :=
  (represents.setRegisters hold).proceed _

theorem Represents.onRegister (represents : machine.Represents state) {name : RegisterName}
    {operation : DelayLine 40 → Timed (DelayLine 40)} {a b s : Word}
    (hold : (machine.registers.set name
      (operation (machine.registers.get name)).result).Hold a b s) :
    Follows (machine.onRegister name operation)
      ({ state with a, b, s } : WordMachine geometry).next :=
  (represents.setRegisters hold).proceed _

theorem Represents.print (represents : machine.Represents state) :
    Follows machine.print
      ({ state with output := state.output.push state.a.toInt } : WordMachine geometry).next := by
  have scanned := Arithmetic.scan_eq represents.registers
  have printed : ({ machine with
      output := machine.output.push state.a.toInt } : Machine geometry).Represents
      { state with output := state.output.push state.a.toInt } :=
    { represents with output := congrArg (·.push state.a.toInt) represents.output }
  rw [Machine.print, scanned]
  exact printed.proceed 40

theorem Represents.executePlain (represents : machine.Represents state) (op : PlainOp) :
    Follows (machine.executePlain op) (state.executePlain op).next := by
  have hold := represents.registers
  cases op with
  | nop => exact represents.proceed 0
  | add => exact represents.onRegisters (Arithmetic.hold_add hold)
  | neg => exact represents.onRegisters (Arithmetic.hold_negate hold)
  | shl => exact represents.onRegisters (Arithmetic.hold_shiftLeft hold)
  | shr => exact represents.onRegisters (Arithmetic.hold_shiftRight hold)
  | and =>
      apply represents.onRegisters
      apply Arithmetic.hold_logic _ _ hold
      intro place _
      exact BitVec.getLsbD_and
  | orr =>
      apply represents.onRegisters
      apply Arithmetic.hold_logic _ _ hold
      intro place _
      exact BitVec.getLsbD_or
  | xor =>
      apply represents.onRegisters
      apply Arithmetic.hold_logic _ _ hold
      intro place _
      exact BitVec.getLsbD_xor
  | mul =>
      have product := Arithmetic.multiply_spec hold.a.toCarries hold.b.toCarries hold.s.refresh
      exact represents.onRegisters product.2
  | pra => exact represents.print
  | hlt =>
      have halted : ({ machine with state := .halted } : Machine geometry).Represents
          { state with state := .halted } :=
        { represents with running := rfl }
      exact halted.proceed 0

theorem Represents.dataPlace (represents : machine.Represents state) (address : DataAddress)
    {transfer : Fin geometry.dataBanks → Fin geometry.bankWords → Executed geometry}
    {act : Fin geometry.dataBanks → Fin geometry.bankWords → WordMachine geometry}
    (follows : ∀ bank word, Follows (transfer bank word) (act bank word).next) :
    Follows
      (match machine.dataPlace? address with
      | .error error => (.error error, machine)
      | .ok (bank, word) => transfer bank word)
      (state.atData address act) := by
  rw [dataPlace?]
  rcases WordMachine.inside_or_outside geometry address with inside | outside
  · rw [dif_pos inside, WordMachine.atData_of_inside inside.1 inside.2]
    exact follows _ _
  · have refused : ¬ (address.bank.toNat < geometry.dataBanks ∧
        address.word.toNat < geometry.bankWords) := by
      rintro ⟨bankInside, wordInside⟩
      exact outside.elim (Nat.not_le_of_lt bankInside) (Nat.not_le_of_lt wordInside)
    rw [dif_neg refused, WordMachine.atData_of_outside outside, represents.counter]
    exact ⟨rfl, represents⟩

theorem Represents.mainPlace (represents : machine.Represents state) (address : Nat)
    {transfer : Fin geometry.mainWords → Executed geometry}
    {act : Fin geometry.mainWords → WordMachine geometry}
    (follows : ∀ word, Follows (transfer word) (act word).next) :
    Follows
      (match machine.mainPlace? address with
      | .ok word => transfer word
      | .error error => (.error error, machine))
      (state.atMain address act) := by
  rw [mainPlace?, WordMachine.atMain]
  by_cases inside : address < geometry.mainWords
  · rw [dif_pos inside, dif_pos inside]
    exact follows _
  · rw [dif_neg inside, dif_neg inside, represents.counter]
    exact ⟨rfl, represents⟩

theorem Represents.jumpTo (represents : machine.Represents state) (address ticks : Nat) :
    Follows (machine.jumpTo address ticks) (state.goto address) := by
  rw [Machine.jumpTo, mainPlace?, WordMachine.goto]
  by_cases inside : address < geometry.mainWords
  · rw [dif_pos inside, dif_pos inside]
    exact ⟨rfl, represents⟩
  · rw [dif_neg inside, dif_neg inside, represents.counter]
    exact ⟨rfl, represents⟩

/-- Scanning the accumulator leaves everything as it is. -/
theorem Represents.jumpIf (represents : machine.Represents state)
    {condition : Arithmetic.Scan → Bool} {jumps : Prop} [Decidable jumps]
    (decides : condition ⟨decide (state.a = 0), state.a.msb, state.a.toInt⟩ = decide jumps)
    (address : Nat) :
    Follows (machine.jumpIf condition address)
      (if jumps then state.goto address else state.next) := by
  have scanned := Arithmetic.scan_eq represents.registers
  rw [Machine.jumpIf, scanned]
  dsimp only
  rw [decides]
  by_cases taken : jumps
  · rw [if_pos (decide_eq_true taken), if_pos taken]
    exact represents.jumpTo address 40
  · rw [if_neg (by simpa using taken), if_neg taken]
    exact represents.proceed 40

/-! ## Transfers -/

theorem Represents.onMain (represents : machine.Represents state)
    {transfer : DelayLine 40 → Bank 1 geometry.mainWords →
      Timed (DelayLine 40 × Bank 1 geometry.mainWords)}
    {a : Word} {content : Fin geometry.mainWords → Word}
    (holds : (transfer machine.registers.a machine.main).result.1.Holds a)
    (keeps : (transfer machine.registers.a machine.main).result.2.Keeps fun _ => content)
    (order : (transfer machine.registers.a machine.main).result.2.order = machine.main.order)
    (aligned :
      (transfer machine.registers.a machine.main).result.2.position Bank.sole % 40 = 0) :
    Follows (machine.onMain transfer)
      ({ state with a, main := content } : WordMachine geometry).next :=
  ((represents.setMain keeps order aligned).setRegisters
    (represents.registers.setA holds)).proceed _

theorem Represents.loadMain (represents : machine.Represents state)
    (word : Fin geometry.mainWords) :
    Follows (machine.onMain (Transfer.load Bank.sole word))
      ({ state with a := (state.main word).reverse } : WordMachine geometry).next := by
  have loaded := Transfer.load_of_keeps represents.main represents.registers.a.refresh
    Bank.sole word
  rw [represents.mainOrder] at loaded
  apply represents.onMain loaded.1 loaded.2
  · exact Transfer.order_load _ _ _ _
  · rw [Transfer.position_load]
    exact behind_mod _ _

theorem Represents.storeMain (represents : machine.Represents state)
    (word : Fin geometry.mainWords) :
    Follows (machine.onMain (Transfer.storeProgram Bank.sole word))
      (state.setMain word state.a.reverse).next := by
  have hold := represents.registers
  have stored := Transfer.store_of_keeps represents.main hold.a Bank.sole word
  have plain := Transfer.storeProgram_eq Bank.sole word machine.registers.a
    (represents.main.settled Bank.sole)
  rw [represents.mainOrder, exchange_sole] at stored
  apply represents.onMain
  · rw [plain, stored.1]
    exact hold.a
  · rw [plain]
    exact stored.2
  · rw [plain]
    exact Transfer.order_store _ _ _ _
  · rw [plain, Transfer.position_store]
    exact behind_mod _ _

theorem Represents.onData (represents : machine.Represents state) {name : RegisterName}
    {transfer : DelayLine 40 → Bank geometry.dataBanks geometry.bankWords →
      Timed (DelayLine 40 × Bank geometry.dataBanks geometry.bankWords)}
    {a b s : Word} {content : Fin geometry.dataBanks → Fin geometry.bankWords → Word}
    (hold : (machine.registers.set name
      (transfer (machine.registers.get name) machine.data).result.1).Hold a b s)
    (keeps : (transfer (machine.registers.get name) machine.data).result.2.Keeps content)
    (order : (transfer (machine.registers.get name) machine.data).result.2.order =
      machine.data.order) :
    Follows (machine.onData name transfer)
      ({ state with a, b, s, data := content } : WordMachine geometry).next :=
  ((represents.setData keeps order).setRegisters hold).proceed _

theorem Represents.collate (represents : machine.Represents state)
    (bank : Fin geometry.dataBanks) (word : Fin geometry.bankWords) :
    Follows (machine.collate bank word)
      ({ state with
        a := state.a + (state.data bank word &&& state.b)
        s := state.data bank word } : WordMachine geometry).next := by
  have collated := Transfer.collate_of_keeps represents.data represents.registers bank word
  rw [represents.dataOrder] at collated
  have order := Transfer.order_collate bank word machine.registers machine.data
  exact ((represents.setData collated.2 order).setRegisters collated.1).proceed _

/-! ## Instructions -/

theorem Represents.executeWide (represents : machine.Represents state) (op : WideOp)
    (operand : Operand) :
    Follows (machine.executeWide op operand) (state.executeWide op operand) := by
  have hold := represents.registers
  cases op with
  | lai =>
      apply represents.onRegister
      exact hold.setA (Arithmetic.holds_loadImmediate hold.a.refresh operand)
  | lbi =>
      apply represents.onRegister
      exact hold.setB (Arithmetic.holds_loadImmediate hold.b.refresh operand)
  | lea =>
      apply represents.onRegister
      exact hold.setA (Arithmetic.holds_loadImmediate_highFirst hold.a.refresh operand)
  | leb =>
      apply represents.onRegister
      exact hold.setB (Arithmetic.holds_loadImmediate_highFirst hold.b.refresh operand)
  | rnd => exact represents.onRegisters (Arithmetic.hold_round operand.toNat hold)
  | mla =>
      have added := Arithmetic.hold_multiplyAdd operand.toNat hold
      rw [BitVec.ofNat_toNat] at added
      exact represents.onRegisters added
  | ldp => exact represents.mainPlace operand.toNat represents.loadMain
  | stp => exact represents.mainPlace operand.toNat represents.storeMain
  | jmp =>
      rw [WordMachine.executeWide, ← represents.base]
      exact represents.jumpTo (machine.base + operand.toNat) 0
  | jmpa => exact represents.jumpTo operand.toNat 0
  | jza =>
      rw [WordMachine.executeWide, ← represents.base]
      have zero : (·.zero) (Arithmetic.Scan.mk (decide (state.a = 0)) state.a.msb state.a.toInt) =
          decide (state.a = 0) := rfl
      exact represents.jumpIf zero (machine.base + operand.toNat)
  | jna =>
      rw [WordMachine.executeWide, ← represents.base]
      have negative : (·.negative)
          (Arithmetic.Scan.mk (decide (state.a = 0)) state.a.msb state.a.toInt) =
          decide (state.a.msb = true) := Bool.decide_eq_true.symm
      exact represents.jumpIf negative (machine.base + operand.toNat)

theorem Represents.executeData (represents : machine.Represents state) (op : DataOp)
    (address : DataAddress) :
    Follows (machine.executeData op address) (state.executeData op address) := by
  have hold := represents.registers
  have keeps := represents.data
  apply represents.dataPlace address
  intro bank word
  cases op with
  | sto =>
      have stored := Transfer.store_of_keeps keeps hold.a bank word
      rw [represents.dataOrder] at stored
      apply represents.onData (hold.setA _) stored.2 (Transfer.order_store _ _ _ _)
      exact stored.1.symm ▸ hold.a
  | stb =>
      have stored := Transfer.store_of_keeps keeps hold.b bank word
      rw [represents.dataOrder] at stored
      apply represents.onData (hold.setB _) stored.2 (Transfer.order_store _ _ _ _)
      exact stored.1.symm ▸ hold.b
  | stc =>
      have moved := Transfer.storeClearing_of_keeps keeps hold.a bank word
      rw [represents.dataOrder] at moved
      exact represents.onData (hold.setA moved.1) moved.2 (Transfer.order_storeClearing _ _ _ _)
  | lda =>
      have loaded := Transfer.load_of_keeps keeps hold.a.refresh bank word
      rw [represents.dataOrder] at loaded
      exact represents.onData (hold.setA loaded.1) loaded.2 (Transfer.order_load _ _ _ _)
  | ldb =>
      have loaded := Transfer.load_of_keeps keeps hold.b.refresh bank word
      rw [represents.dataOrder] at loaded
      exact represents.onData (hold.setB loaded.1) loaded.2 (Transfer.order_load _ _ _ _)
  | col => exact represents.collate bank word

/-- A machine executes every instruction as the instruction set says. -/
theorem Represents.execute (represents : machine.Represents state) (instruction : Instruction) :
    Follows (machine.execute instruction) (state.execute instruction) := by
  cases instruction with
  | plain op => exact represents.executePlain op
  | wide op operand => exact represents.executeWide op operand
  | data op address => exact represents.executeData op address

/-! ## Steps -/

theorem Represents.fetch (represents : machine.Represents state) :
    machine.fetch.1 = state.main state.counter ∧ machine.fetch.2.Represents state := by
  have keeps := represents.main
  have aligned : (machine.main.modifyLine Bank.sole (DelayLine.advance
      (machine.main.waitFor Bank.sole machine.counter + 40))).position Bank.sole % 40 = 0 := by
    rw [Bank.position_advance, ← Nat.add_assoc, ← Nat.mod_add_mod, Bank.position_add_waitFor]
    exact behind_mod _ _
  rw [Machine.fetch, keeps.readWord]
  exact ⟨congrArg state.main represents.counter,
    { represents with main := keeps.advance Bank.sole _, mainAligned := aligned }⟩

/-- Halting shows in the state alone. -/
theorem Represents.halt (represents : machine.Represents state) :
    ({ machine with state := .halted } : Machine geometry).Represents state.halt :=
  { represents with running := rfl }

/-- Completing an instruction moves the counter and counts it. -/
theorem Represents.complete (represents : machine.Represents state) (instruction : Instruction)
    (flow : Flow geometry) :
    (machine.complete instruction flow).Represents
      { state with
        counter := flow.jump.getD state.successor
        cycles := state.cycles + 1
        last := some instruction } := by
  have successor : machine.successor = state.successor := by
    rw [Machine.successor, represents.counter]
    rfl
  exact { represents with
    counter := congrArg flow.jump.getD successor
    cycles := congrArg (· + 1) represents.cycles
    last := rfl }

/-- A machine takes a step as the instruction set says: same instruction or same
fault, and it represents the next state. -/
theorem Represents.step (represents : machine.Represents state) :
    machine.step.1 = state.step.1 ∧ machine.step.2.Represents state.step.2 := by
  obtain ⟨word, ready⟩ := represents.fetch
  rw [Machine.step, WordMachine.step, ← represents.running, Machine.cycle]
  rcases fetch : machine.fetch with ⟨first, fetched⟩
  rw [fetch] at word ready
  cases machine.state with
  | halted => exact ⟨rfl, represents⟩
  | running =>
      dsimp only at word ready ⊢
      rw [word, represents.counter, WordMachine.executeWord, InstructionTable.read_eq_decode]
      cases Instruction.decode (state.main state.counter) with
      | error error => exact ⟨rfl, ready.halt⟩
      | ok instruction =>
          have follows := ready.execute instruction
          have frame := state.execute_frame instruction
          dsimp only
          generalize fetched.execute instruction = done at follows ⊢
          generalize state.execute instruction = outcome at follows frame ⊢
          rcases done with ⟨result, executed⟩
          rcases outcome with ⟨asked, after⟩
          obtain ⟨jump, left⟩ := follows
          dsimp only at jump left frame
          subst jump
          cases result with
          | error error => exact ⟨rfl, left.halt⟩
          | ok flow =>
              have completed := left.complete instruction flow
              rw [WordMachine.successor_congr frame.1, frame.2] at completed
              exact ⟨rfl, completed⟩

end BitSerial.Machine
