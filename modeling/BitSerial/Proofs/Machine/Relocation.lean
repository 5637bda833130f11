import BitSerial.Proofs.Machine.Faults

/-!
# Code that may stand anywhere

A program that never names a place of main memory by its address does the same on
machines whose main memories differ in size.  Two such machines are kept in step:
everything they can be told apart by is where the program stands.
-/

namespace BitSerial

/-- Whether an instruction names a place of main memory by its address. -/
def Instruction.isAbsolute : Instruction → Bool
  | .wide .ldp _ | .wide .stp _ | .wide .jmpa _ => true
  | _ => false

/-- A word that is no instruction with an address of main memory. -/
def Word.Relative (word : Word) : Prop :=
  Word.opcode word ≠ (Opcode.wide .ldp).byte ∧ Word.opcode word ≠ (Opcode.wide .stp).byte ∧
    Word.opcode word ≠ (Opcode.wide .jmpa).byte

instance : DecidablePred Word.Relative :=
  fun _ => inferInstanceAs (Decidable (_ ∧ _ ∧ _))

theorem Word.Relative.isAbsolute {word : Word} (relative : Word.Relative word)
    {instruction : Instruction} (decoded : Instruction.decode word = .ok instruction) :
    instruction.isAbsolute = false := by
  obtain ⟨ldp, stp, jmpa⟩ := relative
  have byte := (Instruction.decode_eq_ok_iff.mp decoded).1
  cases instruction with
  | plain | data => rfl
  | wide op operand =>
      cases op with
      | ldp => exact absurd byte.symm ldp
      | stp => exact absurd byte.symm stp
      | jmpa => exact absurd byte.symm jmpa
      | lai | lbi | lea | leb | rnd | mla | jmp | jza | jna => rfl

/-- Whether an instruction jumps while the accumulator holds a word. -/
def Instruction.Jumps (a : Word) : Instruction → Prop
  | .wide .jmp _ | .wide .jmpa _ => True
  | .wide .jza _ => a = 0
  | .wide .jna _ => a.msb = true
  | _ => False

/-- A fault of a program that stands at a base, from the fault of one that stands at
address zero. -/
def StepError.shift (base : Nat) : StepError → StepError
  | .notRunning state => .notRunning state
  | .unknownOpcode byte counter => .unknownOpcode byte (base + counter)
  | .dataAddress bank word counter => .dataAddress bank word (base + counter)
  | .mainAddress address counter => .mainAddress (base + address) (base + counter)

/-- A geometry with another size of main memory. -/
abbrev Geometry.resized (size : Nat) (geometry : Geometry) : Geometry :=
  { geometry with mainWords := size }

namespace WordMachine

variable {geometry : Geometry} {size : Nat}

/-- A machine with another main memory, at another place of it. -/
def relocate (main : Fin size → Word) (counter : Fin size) (base : Nat)
    (machine : WordMachine geometry) : WordMachine (geometry.resized size) where
  a := machine.a
  b := machine.b
  s := machine.s
  main := main
  data := machine.data
  counter := counter
  base := base
  state := machine.state
  cycles := machine.cycles
  output := machine.output
  last := machine.last

/-- Whether a step goes on behind the end of main memory, with an instruction that
neither jumps nor halts. -/
def RunsOff (machine : WordMachine geometry) : Prop :=
  ∃ instruction, machine.step.1 = .ok instruction ∧ instruction ≠ .plain .hlt ∧
    ¬instruction.Jumps machine.a ∧ machine.counter + 1 = geometry.mainWords

/-! ## Executing relative instructions -/

/-- What a relative instruction does on a machine and on another of the same registers
and data: it goes on with the next word, jumps by the same offset, or addresses no data
word. -/
inductive Executes (machine : WordMachine geometry) (other : WordMachine (geometry.resized size))
    (instruction : Instruction) : Prop
  | next (after : WordMachine geometry) (here : machine.execute instruction = after.next)
      (there : other.execute instruction =
        (after.relocate other.main other.counter other.base).next)
      (stays : ¬instruction.Jumps machine.a) (main : after.main = machine.main)
      (base : after.base = machine.base)
  | goto (offset : Nat)
      (here : machine.execute instruction = machine.goto (machine.base + offset))
      (there : other.execute instruction = other.goto (other.base + offset))
  | outside (bank word : Nat)
      (here : machine.execute instruction =
        (.error (.dataAddress bank word machine.counter), machine))
      (there : other.execute instruction = (.error (.dataAddress bank word other.counter), other))

variable (main : Fin size → Word) (counter : Fin size) (base : Nat)

theorem executes_wide (machine : WordMachine geometry) {op : WideOp} {operand : Operand}
    (relative : (Instruction.wide op operand).isAbsolute = false) :
    Executes machine (machine.relocate main counter base) (.wide op operand) := by
  cases op with
  | lai | lbi | lea | leb | rnd | mla => exact .next _ rfl rfl not_false rfl rfl
  | ldp | stp | jmpa => cases relative
  | jmp => exact .goto operand.toNat rfl rfl
  | jza =>
      by_cases zero : machine.a = 0
      · exact .goto operand.toNat (if_pos zero) (if_pos zero)
      · exact .next machine (if_neg zero) (if_neg zero) zero rfl rfl
  | jna =>
      by_cases negative : machine.a.msb = true
      · exact .goto operand.toNat (if_pos negative) (if_pos negative)
      · exact .next machine (if_neg negative) (if_neg negative) negative rfl rfl

theorem executes_data (machine : WordMachine geometry) (op : DataOp) (address : DataAddress) :
    Executes machine (machine.relocate main counter base) (.data op address) := by
  rcases inside_or_outside geometry address with ⟨bank, word⟩ | outside
  · have bankOther : address.bank.toNat < (geometry.resized size).dataBanks := bank
    have wordOther : address.word.toNat < (geometry.resized size).bankWords := word
    apply Executes.next
    · rw [execute, executeData, atData_of_inside bank word]
    · rw [execute, executeData, atData_of_inside bankOther wordOther]
      cases op <;> rfl
    · exact not_false
    · cases op <;> rfl
    · cases op <;> rfl
  · have outsideOther : (geometry.resized size).dataBanks ≤ address.bank.toNat ∨
        (geometry.resized size).bankWords ≤ address.word.toNat := outside
    apply Executes.outside address.bank.toNat address.word.toNat
    · rw [execute, executeData, atData_of_outside outside]
    · rw [execute, executeData, atData_of_outside outsideOther]

theorem executes_relocate (machine : WordMachine geometry) {instruction : Instruction}
    (relative : instruction.isAbsolute = false) :
    Executes machine (machine.relocate main counter base) instruction := by
  cases instruction with
  | plain op =>
      apply Executes.next (machine.executePlain op)
      · rfl
      · cases op <;> rfl
      · exact not_false
      · cases op <;> rfl
      · cases op <;> rfl
  | wide op operand => exact executes_wide main counter base machine relative
  | data op address => exact executes_data main counter base machine op address

/-! ## Programs at the tail -/

/-- A program stands at the tail of main memory, with zeros before it. -/
structure Stands (program : List Word) (machine : WordMachine geometry) : Prop where
  fits : program.length ≤ geometry.mainWords
  main : machine.main = image program
  base : machine.base = geometry.mainWords - program.length

variable {program : List Word} {machine : WordMachine geometry}

theorem stands_load (fits : program.length ≤ geometry.mainWords)
    (machine : WordMachine geometry) : (machine.load program).Stands program where
  fits := fits
  main := rfl
  base := rfl

/-- A relative jump that is taken needs the word at its offset, and no other. -/
theorem needs_iff_of_jumps {op : WideOp} {operand : Operand} {address : Nat}
    (relative : (Instruction.wide op operand).isAbsolute = false)
    (jumps : (Instruction.wide op operand).Jumps machine.a) :
    machine.Needs op operand address ↔ address = machine.base + operand.toNat := by
  cases op with
  | lai | lbi | lea | leb | rnd | mla => exact jumps.elim
  | ldp | stp | jmpa => cases relative
  | jmp => exact Iff.rfl
  | jza | jna => exact ⟨And.right, fun named => ⟨jumps, named⟩⟩

namespace Stands

theorem word (stands : machine.Stands program) {offset : Nat} (inside : offset < program.length)
    (place : machine.counter.val = machine.base + offset) :
    machine.main machine.counter = program[offset] := by
  rw [stands.main]
  exact image_of_getElem inside (place.trans (congrArg (· + offset) stands.base))

/-- Main memory ends where the program does, so it has the places that the program
has. -/
theorem add_lt_iff (stands : machine.Stands program) (offset : Nat) :
    machine.base + offset < geometry.mainWords ↔ offset < program.length := by
  have fits := stands.fits
  rw [stands.base]
  omega

/-- A jump by an offset fails exactly if the program has no word there. -/
theorem jump_fails_iff (stands : machine.Stands program) (running : machine.state = .running)
    {op : WideOp} {operand : Operand}
    (decoded : Instruction.decode (machine.main machine.counter) = .ok (.wide op operand))
    (relative : (Instruction.wide op operand).isAbsolute = false)
    (jumps : (Instruction.wide op operand).Jumps machine.a) :
    (∃ error, machine.step.1 = .error error) ↔ program.length ≤ operand.toNat := by
  have range := stands.add_lt_iff operand.toNat
  rw [← Nat.not_lt, ← range, Nat.not_lt]
  constructor
  · rintro ⟨error, failed⟩
    rw [step_eq_error_iff_of_decode running decoded] at failed
    obtain ⟨address, needed, outside, -⟩ := executeWide_eq_error_iff.mp failed
    rwa [(needs_iff_of_jumps relative jumps).mp needed] at outside
  · intro outside
    refine ⟨.mainAddress (machine.base + operand.toNat) machine.counter, ?_⟩
    rw [step_eq_error_iff_of_decode running decoded]
    exact executeWide_eq_error_iff.mpr
      ⟨_, (needs_iff_of_jumps relative jumps).mpr rfl, outside, rfl⟩

end Stands

/-! ## Two machines in step -/

/-- A machine and one with another main memory that can be told apart only by where a
program stands.  While they run they are at the same word of it. -/
structure InStep (program : List Word) (machine : WordMachine geometry)
    (other : WordMachine (geometry.resized size)) : Prop where
  same : other = machine.relocate other.main other.counter other.base
  here : machine.Stands program
  there : other.Stands program
  counter : machine.state = .running → ∃ offset < program.length,
    machine.counter.val = machine.base + offset ∧ other.counter.val = other.base + offset

variable {other : WordMachine (geometry.resized size)}

namespace InStep

theorem state (inStep : InStep program machine other) : other.state = machine.state :=
  congrArg WordMachine.state inStep.same

theorem cycles (inStep : InStep program machine other) : other.cycles = machine.cycles :=
  congrArg WordMachine.cycles inStep.same

theorem halt (inStep : InStep program machine other) :
    InStep program machine.halt other.halt where
  same := congrArg WordMachine.halt inStep.same
  here := { inStep.here with }
  there := { inStep.there with }
  counter running := by cases running

/-- Two machines stay in step if they go on at the same word of the program. -/
theorem complete (inStep : InStep program machine other) {after : WordMachine geometry}
    {afterOther : WordMachine (geometry.resized size)}
    (same : afterOther = after.relocate other.main other.counter other.base)
    (main : after.main = machine.main) (base : after.base = machine.base)
    {next : Fin geometry.mainWords} {nextOther : Fin (geometry.resized size).mainWords}
    (lands : after.state = .running → ∃ offset < program.length,
      next.val = machine.base + offset ∧ nextOther.val = other.base + offset)
    (last : Option Instruction) :
    InStep program { after with counter := next, cycles := machine.cycles + 1, last }
      { afterOther with counter := nextOther, cycles := other.cycles + 1, last } := by
  subst same
  exact {
    same := by rw [inStep.cycles]; rfl
    here := {
      fits := inStep.here.fits
      main := main.trans inStep.here.main
      base := base.trans inStep.here.base }
    there := { inStep.there with }
    counter := by
      intro running
      obtain ⟨offset, inside, here, there⟩ := lands running
      exact ⟨offset, inside, here.trans (congrArg (· + offset) base.symm), there⟩ }

end InStep

/-- Steps of two machines end in the same way, with the same instruction or with faults
that differ by where the program stands.  Unless the first machine runs off the program,
the two are in step again. -/
structure StepsWith (program : List Word) (machine : WordMachine geometry)
    (other : WordMachine (geometry.resized size)) : Prop where
  outcome : ∃ outcome : Except StepError Instruction,
    machine.step.1 = outcome.mapError (·.shift machine.base) ∧
      other.step.1 = outcome.mapError (·.shift other.base)
  after : ¬machine.RunsOff → InStep program machine.step.2 other.step.2

namespace InStep

variable {instruction : Instruction} {offset : Nat}

/-- Both machines fail for the same reason, and halt. -/
theorem steps_of_error (inStep : InStep program machine other) (error : StepError)
    (here : machine.step = (.error (error.shift machine.base), machine.halt))
    (there : other.step = (.error (error.shift other.base), other.halt)) :
    StepsWith program machine other where
  outcome := ⟨.error error, congrArg Prod.fst here, congrArg Prod.fst there⟩
  after _ := by
    rw [here, there]
    exact inStep.halt

/-- A machine that has neither halted nor run off the program is at its next word. -/
theorem next_inside (inStep : InStep program machine other)
    (place : machine.counter.val = machine.base + offset) (inside : offset < program.length)
    {after : WordMachine geometry} (executed : machine.execute instruction = after.next)
    (stepped : machine.step.1 = .ok instruction) (stays : ¬instruction.Jumps machine.a)
    (onward : ¬machine.RunsOff) (running : after.state = .running) :
    offset + 1 < program.length := by
  by_contra behind
  apply onward
  refine ⟨instruction, stepped, ?_, stays, ?_⟩
  · rintro rfl
    have halted : after.state = .halted := congrArg (·.2.state) executed.symm
    rw [running] at halted
    cases halted
  · have fits := inStep.here.fits
    have stands := inStep.here.base
    omega

/-- Machines in step that execute the same relative instruction. -/
theorem steps_of_executes (inStep : InStep program machine other)
    (running : machine.state = .running) (inside : offset < program.length)
    (place : machine.counter.val = machine.base + offset)
    (placeOther : other.counter.val = other.base + offset)
    (decoded : Instruction.decode (machine.main machine.counter) = .ok instruction)
    (decodedOther : Instruction.decode (other.main other.counter) = .ok instruction)
    (executes : Executes machine other instruction) : StepsWith program machine other := by
  have runningOther := inStep.state.trans running
  cases executes with
  | next after here there stays main base =>
      have step := step_of_decode running decoded here
      have stepOther := step_of_decode runningOther decodedOther there
      refine ⟨⟨.ok instruction, congrArg Prod.fst step, congrArg Prod.fst stepOther⟩, ?_⟩
      intro onward
      rw [step, stepOther]
      apply inStep.complete rfl main base
      intro runs
      have further :=
        inStep.next_inside place inside here (congrArg Prod.fst step) stays onward runs
      -- On neither machine does the counter go round the end of main memory.
      have room := (inStep.here.add_lt_iff (offset + 1)).mpr further
      have roomOther := (inStep.there.add_lt_iff (offset + 1)).mpr further
      refine ⟨offset + 1, further, ?_, ?_⟩
      · show (machine.counter.val + 1) % geometry.mainWords = _
        rw [place, Nat.add_assoc, Nat.mod_eq_of_lt room]
      · show (other.counter.val + 1) % (geometry.resized size).mainWords = _
        rw [placeOther, Nat.add_assoc, Nat.mod_eq_of_lt roomOther]
  | goto target here there =>
      by_cases inRange : target < program.length
      · have room := (inStep.here.add_lt_iff target).mpr inRange
        have roomOther := (inStep.there.add_lt_iff target).mpr inRange
        rw [goto, dif_pos room] at here
        rw [goto, dif_pos roomOther] at there
        have step := step_of_decode running decoded here
        have stepOther := step_of_decode runningOther decodedOther there
        refine ⟨⟨.ok instruction, congrArg Prod.fst step, congrArg Prod.fst stepOther⟩, ?_⟩
        intro _
        rw [step, stepOther]
        exact inStep.complete inStep.same rfl rfl (fun _ => ⟨target, inRange, rfl, rfl⟩) _
      · -- Either memory ends with the program, so the target is behind both.
        have outside := mt (inStep.here.add_lt_iff target).mp inRange
        have outsideOther := mt (inStep.there.add_lt_iff target).mp inRange
        rw [goto, dif_neg outside, place] at here
        rw [goto, dif_neg outsideOther, placeOther] at there
        exact inStep.steps_of_error (.mainAddress target offset)
          (step_of_decode_error running decoded here)
          (step_of_decode_error runningOther decodedOther there)
  | outside bank word here there =>
      rw [place] at here
      rw [placeOther] at there
      exact inStep.steps_of_error (.dataAddress bank word offset)
        (step_of_decode_error running decoded here)
        (step_of_decode_error runningOther decodedOther there)

/-- One step of machines in step. -/
theorem steps (inStep : InStep program machine other)
    (relative : ∀ word ∈ program, Word.Relative word) : StepsWith program machine other := by
  cases running : machine.state with
  | halted =>
      have step := step_of_halted running
      have stepOther := step_of_halted (inStep.state.trans running)
      refine ⟨⟨.error (.notRunning .halted), ?_, ?_⟩, fun _ => ?_⟩
      · rw [step]
        rfl
      · rw [stepOther]
        rfl
      · rw [step, stepOther]
        exact inStep
  | running =>
      obtain ⟨offset, inside, place, placeOther⟩ := inStep.counter running
      have word := inStep.here.word inside place
      have wordOther := inStep.there.word inside placeOther
      cases decoded : Instruction.decode program[offset] with
      | error unknown =>
          have step := step_of_unknown running (word.symm ▸ decoded)
          have stepOther :=
            step_of_unknown (inStep.state.trans running) (wordOther.symm ▸ decoded)
          rw [place] at step
          rw [placeOther] at stepOther
          exact inStep.steps_of_error (.unknownOpcode unknown.byte offset) step stepOther
      | ok instruction =>
          have isRelative := (relative _ (List.getElem_mem inside)).isAbsolute decoded
          have executes := executes_relocate other.main other.counter other.base machine isRelative
          rw [← inStep.same] at executes
          exact inStep.steps_of_executes running inside place placeOther (word.symm ▸ decoded)
            (wordOther.symm ▸ decoded) executes

end InStep

end WordMachine

end BitSerial
