import BitSerial.Machine.Step
import BitSerial.Proofs.Instruction.Table
import Mathlib.Logic.Function.Basic

/-!
# The instruction set

What a programmer has to know of the machine: three words, a program memory, a
data memory and what every instruction does to them.  Lines, heads and pulses do
not occur here, and a word of either memory is simply at its address.  Which
instruction a word is says the table of instructions.
-/

namespace BitSerial

/-- A machine as its instructions see it. -/
@[ext]
structure WordMachine (geometry : Geometry) where
  a : Word
  b : Word
  s : Word
  main : Fin geometry.mainWords → Word
  data : Fin geometry.dataBanks → Fin geometry.bankWords → Word
  counter : Fin geometry.mainWords
  base : Nat
  state : RunState
  cycles : UInt64
  output : Array Int
  last : Option Instruction

namespace WordMachine

variable {geometry : Geometry}

/-- Where an instruction asks to go on, if not with the next word, and the
machine it leaves. -/
abbrev Outcome (geometry : Geometry) : Type :=
  Except StepError (Option (Fin geometry.mainWords)) × WordMachine geometry

/-- Go on with the next word. -/
def next (machine : WordMachine geometry) : Outcome geometry :=
  (.ok none, machine)

/-- Go on at an address that main memory has. -/
def goto (address : Nat) (machine : WordMachine geometry) : Outcome geometry :=
  if inside : address < geometry.mainWords then (.ok (some ⟨address, inside⟩), machine)
  else (.error (.mainAddress address machine.counter), machine)

/-- Act on a program word that main memory has. -/
def atMain (address : Nat) (act : Fin geometry.mainWords → WordMachine geometry)
    (machine : WordMachine geometry) : Outcome geometry :=
  if inside : address < geometry.mainWords then (act ⟨address, inside⟩).next
  else (.error (.mainAddress address machine.counter), machine)

/-- Act on a data word that data memory has. -/
def atData (address : DataAddress)
    (act : Fin geometry.dataBanks → Fin geometry.bankWords → WordMachine geometry)
    (machine : WordMachine geometry) : Outcome geometry :=
  let bank := address.bank.toNat
  let word := address.word.toNat
  let outside : Outcome geometry := (.error (.dataAddress bank word machine.counter), machine)
  if bankInside : bank < geometry.dataBanks then
    if wordInside : word < geometry.bankWords then (act ⟨bank, bankInside⟩ ⟨word, wordInside⟩).next
    else outside
  else
    outside

/-- Exchange a program word. -/
def setMain (address : Fin geometry.mainWords) (value : Word) (machine : WordMachine geometry) :
    WordMachine geometry :=
  { machine with main := Function.update machine.main address value }

/-- Exchange a data word. -/
def setData (bank : Fin geometry.dataBanks) (word : Fin geometry.bankWords) (value : Word)
    (machine : WordMachine geometry) : WordMachine geometry :=
  { machine with
    data := Function.update machine.data bank (Function.update (machine.data bank) word value) }

/-- What operations without an operand do. -/
def executePlain (op : PlainOp) (machine : WordMachine geometry) : WordMachine geometry :=
  match op with
  | .nop => machine
  | .add => { machine with a := machine.a + machine.b }
  | .neg => { machine with b := -machine.b }
  | .shl => { machine with a := machine.a >>> 1 }
  | .shr => { machine with a := machine.a <<< 1, s := machine.a }
  | .and => { machine with a := machine.a &&& machine.b }
  | .orr => { machine with a := machine.a ||| machine.b }
  | .xor => { machine with a := machine.a ^^^ machine.b }
  | .mul => { machine with a := machine.a * machine.b, b := 0, s := machine.a }
  | .pra => { machine with output := machine.output.push machine.a.toInt }
  | .hlt => { machine with state := .halted }

/-- What operations with a thirty-two bit operand do.  Between the accumulator
and main memory a word is turned round, since they stream in opposite orders. -/
def executeWide (op : WideOp) (operand : Operand) (machine : WordMachine geometry) :
    Outcome geometry :=
  let number := operand.toNat
  match op with
  | .lai => { machine with a := operand.setWidth 40 : WordMachine geometry }.next
  | .lbi => { machine with b := operand.setWidth 40 : WordMachine geometry }.next
  | .lea => { machine with a := (operand.setWidth 40).reverse : WordMachine geometry }.next
  | .leb => { machine with b := (operand.setWidth 40).reverse : WordMachine geometry }.next
  | .rnd =>
      let low := min number 40
      { machine with a := machine.a >>> low <<< low : WordMachine geometry }.next
  | .mla =>
      { machine with a := machine.a + operand.setWidth 40 * machine.b : WordMachine geometry }.next
  | .ldp => machine.atMain number fun word => { machine with a := (machine.main word).reverse }
  | .stp => machine.atMain number fun word => machine.setMain word machine.a.reverse
  | .jmp => machine.goto (machine.base + number)
  | .jmpa => machine.goto number
  | .jza => if machine.a = 0 then machine.goto (machine.base + number) else machine.next
  | .jna => if machine.a.msb then machine.goto (machine.base + number) else machine.next

/-- What operations on a data word do. -/
def executeData (op : DataOp) (address : DataAddress) (machine : WordMachine geometry) :
    Outcome geometry :=
  machine.atData address fun bank word =>
    let value := machine.data bank word
    match op with
    | .sto => machine.setData bank word machine.a
    | .stb => machine.setData bank word machine.b
    | .stc => { machine.setData bank word machine.a with a := 0 }
    | .lda => { machine with a := value }
    | .ldb => { machine with b := value }
    | .col => { machine with a := machine.a + (value &&& machine.b), s := value }

/-- What an instruction does. -/
def execute (instruction : Instruction) (machine : WordMachine geometry) : Outcome geometry :=
  match instruction with
  | .plain op => (machine.executePlain op).next
  | .wide op operand => machine.executeWide op operand
  | .data op address => machine.executeData op address

/-- The address behind the counter, round the end of main memory. -/
def successor (machine : WordMachine geometry) : Fin geometry.mainWords :=
  ⟨(machine.counter + 1) % geometry.mainWords, Nat.mod_lt _ machine.counter.pos⟩

/-- Stop the machine. -/
def halt (machine : WordMachine geometry) : WordMachine geometry :=
  { machine with state := .halted }

/-- Execute a word.  One that is no instruction, or one that addresses a word that
is not there, does nothing but halt the machine. -/
def executeWord (word : Word) (machine : WordMachine geometry) :
    Except StepError Instruction × WordMachine geometry :=
  match InstructionTable.read word with
  | .error error => (.error (.unknownOpcode error.byte machine.counter), machine.halt)
  | .ok instruction =>
      match machine.execute instruction with
      | (.error error, after) => (.error error, after.halt)
      | (.ok jump, after) =>
          (.ok instruction, { after with
            counter := jump.getD machine.successor
            cycles := machine.cycles + 1
            last := some instruction })

/-- Execute the word at the counter, if the machine runs. -/
def step (machine : WordMachine geometry) :
    Except StepError Instruction × WordMachine geometry :=
  match machine.state with
  | .halted => (.error (.notRunning .halted), machine)
  | .running => machine.executeWord (machine.main machine.counter)

/-- Take at most a number of steps, while the machine runs and none fails. -/
def runFor : Nat → WordMachine geometry → Except StepError Unit × WordMachine geometry
  | 0, machine => (.ok (), machine)
  | count + 1, machine =>
      match machine.state with
      | .halted => (.ok (), machine)
      | .running =>
          match machine.step with
          | (.ok _, after) => runFor count after
          | (.error error, after) => (.error error, after)

/-- Main memory with a program at its tail and zeros before it. -/
def image (program : List Word) (address : Fin geometry.mainWords) : Word :=
  let base := geometry.mainWords - program.length
  if base ≤ address then program[address - base]?.getD 0 else 0

/-- Put a program at the tail of main memory and make ready to run it. -/
def load (program : List Word) (machine : WordMachine geometry) : WordMachine geometry :=
  let base := geometry.mainWords - program.length
  { machine with
    main := image program
    counter := ⟨base % geometry.mainWords, Nat.mod_lt _ machine.counter.pos⟩
    base := base
    state := .running }

/-- A program's words are where its base says. -/
theorem image_of_getElem {program : List Word} {index : Nat} (inside : index < program.length)
    {address : Fin geometry.mainWords}
    (place : address.val = geometry.mainWords - program.length + index) :
    image program address = program[index] := by
  have behind : geometry.mainWords - program.length ≤ address := by
    rw [place]
    exact Nat.le_add_right _ index
  have offset : address - (geometry.mainWords - program.length) = index := by
    rw [place]
    exact Nat.add_sub_cancel_left _ index
  rw [image, if_pos behind, offset, List.getElem?_eq_getElem inside, Option.getD_some]

theorem successor_congr {first second : WordMachine geometry}
    (same : first.counter = second.counter) : first.successor = second.successor := by
  apply Fin.ext
  show (first.counter.val + 1) % geometry.mainWords = _
  rw [same]
  rfl

/-! ## Single steps -/

theorem step_of_halted {machine : WordMachine geometry} (halted : machine.state = .halted) :
    machine.step = (.error (.notRunning .halted), machine) := by
  rw [step, halted]

theorem step_of_running {machine : WordMachine geometry} (running : machine.state = .running) :
    machine.step = machine.executeWord (machine.main machine.counter) := by
  rw [step, running]

/-- A step of a running machine follows from decoding and executing alone. -/
theorem step_of_decode {machine : WordMachine geometry} {instruction : Instruction}
    (running : machine.state = .running)
    (decoded : Instruction.decode (machine.main machine.counter) = .ok instruction)
    {jump : Option (Fin geometry.mainWords)} {after : WordMachine geometry}
    (executed : machine.execute instruction = (.ok jump, after)) :
    machine.step = (.ok instruction, { after with
      counter := jump.getD machine.successor
      cycles := machine.cycles + 1
      last := some instruction }) := by
  rw [step_of_running running, executeWord, InstructionTable.read_eq_decode, decoded]
  dsimp only
  rw [executed]

/-- A word that is no instruction halts the machine. -/
theorem step_of_unknown {machine : WordMachine geometry} {unknown : UnknownOpcode}
    (running : machine.state = .running)
    (decoded : Instruction.decode (machine.main machine.counter) = .error unknown) :
    machine.step = (.error (.unknownOpcode unknown.byte machine.counter), machine.halt) := by
  rw [step_of_running running, executeWord, InstructionTable.read_eq_decode, decoded]

/-- So does an instruction that cannot be executed. -/
theorem step_of_decode_error {machine : WordMachine geometry} {instruction : Instruction}
    {error : StepError} (running : machine.state = .running)
    (decoded : Instruction.decode (machine.main machine.counter) = .ok instruction)
    (executed : machine.execute instruction = (.error error, machine)) :
    machine.step = (.error error, machine.halt) := by
  rw [step_of_running running, executeWord, InstructionTable.read_eq_decode, decoded]
  dsimp only
  rw [executed]

theorem goto_named {address : Fin geometry.mainWords} {number : Nat}
    (named : address.val = number) (machine : WordMachine geometry) :
    machine.goto number = (.ok (some address), machine) := by
  subst named
  exact dif_pos address.isLt

theorem atMain_named {address : Fin geometry.mainWords} {number : Nat}
    (named : address.val = number) (act : Fin geometry.mainWords → WordMachine geometry)
    (machine : WordMachine geometry) :
    machine.atMain number act = (act address).next := by
  subst named
  exact dif_pos address.isLt

/-! ## Data addresses -/

theorem atData_of_inside {address : DataAddress}
    (bankInside : address.bank.toNat < geometry.dataBanks)
    (wordInside : address.word.toNat < geometry.bankWords)
    (act : Fin geometry.dataBanks → Fin geometry.bankWords → WordMachine geometry)
    (machine : WordMachine geometry) :
    machine.atData address act =
      (act ⟨address.bank.toNat, bankInside⟩ ⟨address.word.toNat, wordInside⟩).next := by
  rw [atData, dif_pos bankInside, dif_pos wordInside]

theorem atData_of_outside {address : DataAddress}
    (outside : geometry.dataBanks ≤ address.bank.toNat ∨
      geometry.bankWords ≤ address.word.toNat)
    (act : Fin geometry.dataBanks → Fin geometry.bankWords → WordMachine geometry)
    (machine : WordMachine geometry) :
    machine.atData address act =
      (.error (.dataAddress address.bank.toNat address.word.toNat machine.counter), machine) := by
  rw [atData]
  rcases outside with outside | outside
  · rw [dif_neg (Nat.not_lt_of_le outside)]
  · by_cases bankInside : address.bank.toNat < geometry.dataBanks
    · rw [dif_pos bankInside, dif_neg (Nat.not_lt_of_le outside)]
    · rw [dif_neg bankInside]

/-- A data address has both its parts in range, or one of them is not. -/
theorem inside_or_outside (geometry : Geometry) (address : DataAddress) :
    (address.bank.toNat < geometry.dataBanks ∧ address.word.toNat < geometry.bankWords) ∨
      (geometry.dataBanks ≤ address.bank.toNat ∨ geometry.bankWords ≤ address.word.toNat) := by
  rcases Nat.lt_or_ge address.bank.toNat geometry.dataBanks with bankInside | bankOutside
  · rcases Nat.lt_or_ge address.word.toNat geometry.bankWords with wordInside | wordOutside
    · exact .inl ⟨bankInside, wordInside⟩
    · exact .inr (.inr wordOutside)
  · exact .inr (.inl bankOutside)

/-! ## What executing leaves alone -/

/-- Executing moves no counter and counts nothing; steps do. -/
theorem execute_frame (instruction : Instruction) (machine : WordMachine geometry) :
    (machine.execute instruction).2.counter = machine.counter ∧
      (machine.execute instruction).2.cycles = machine.cycles := by
  have goto (address : Nat) : (machine.goto address).2 = machine := by
    rw [WordMachine.goto]
    split <;> rfl
  cases instruction with
  | plain op => cases op <;> exact ⟨rfl, rfl⟩
  | wide op operand =>
      cases op with
      | lai | lbi | lea | leb | rnd | mla => exact ⟨rfl, rfl⟩
      | ldp | stp =>
          rw [execute, executeWide, atMain]
          split <;> exact ⟨rfl, rfl⟩
      | jmp | jmpa =>
          rw [execute, executeWide, goto]
          exact ⟨rfl, rfl⟩
      | jza | jna =>
          rw [execute, executeWide]
          split
          · rw [goto]
            exact ⟨rfl, rfl⟩
          · exact ⟨rfl, rfl⟩
  | data op address =>
      rw [execute, executeData]
      rcases inside_or_outside geometry address with ⟨bankInside, wordInside⟩ | outside
      · rw [atData_of_inside bankInside wordInside]
        cases op <;> exact ⟨rfl, rfl⟩
      · rw [atData_of_outside outside]
        exact ⟨rfl, rfl⟩

/-- Only a halt changes whether the machine runs. -/
theorem state_execute {instruction : Instruction} (notHalt : instruction ≠ .plain .hlt)
    (machine : WordMachine geometry) :
    (machine.execute instruction).2.state = machine.state := by
  have goto (address : Nat) : (machine.goto address).2.state = machine.state := by
    rw [WordMachine.goto]
    split <;> rfl
  cases instruction with
  | plain op =>
      cases op with
      | hlt => exact absurd rfl notHalt
      | _ => rfl
  | wide op operand =>
      cases op with
      | lai | lbi | lea | leb | rnd | mla => rfl
      | ldp | stp =>
          rw [execute, executeWide, atMain]
          split <;> rfl
      | jmp | jmpa => exact goto _
      | jza | jna =>
          rw [execute, executeWide]
          split
          · exact goto _
          · rfl
  | data op address =>
      rw [execute, executeData]
      rcases inside_or_outside geometry address with ⟨bankInside, wordInside⟩ | outside
      · rw [atData_of_inside bankInside wordInside]
        cases op <;> rfl
      · rw [atData_of_outside outside]

/-- A step that succeeds leaves the machine running, unless it executed a halt. -/
theorem state_step_of_ok {machine : WordMachine geometry} {instruction : Instruction}
    (stepped : machine.step.1 = .ok instruction) :
    machine.step.2.state = if instruction = .plain .hlt then .halted else .running := by
  cases running : machine.state with
  | halted =>
      rw [step_of_halted running] at stepped
      cases stepped
  | running =>
      rw [step_of_running running, executeWord] at stepped ⊢
      cases fetched : InstructionTable.read (machine.main machine.counter) with
      | error error =>
          rw [fetched] at stepped
          cases stepped
      | ok decoded =>
          have kept (notHalt : decoded ≠ .plain .hlt) :
              (machine.execute decoded).2.state = .running :=
            (state_execute notHalt machine).trans running
          rw [fetched] at stepped
          dsimp only at stepped ⊢
          rcases executed : machine.execute decoded with ⟨outcome, after⟩
          rw [executed] at stepped kept
          cases outcome with
          | error error => cases stepped
          | ok jump =>
              cases stepped
              dsimp only
              split
              · rename_i halt
                subst halt
                cases executed
                rfl
              · rename_i notHalt
                exact kept notHalt

end WordMachine

end BitSerial
