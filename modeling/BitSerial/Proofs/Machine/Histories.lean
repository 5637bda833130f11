import BitSerial.Bank.Request
import BitSerial.Proofs.Machine.Preservation
import BitSerial.Proofs.Machine.Reachable
import Mathlib.Logic.Relation

/-!
# Histories end in a reset

Everything about a machine is set anew by a reset, except how its banks are called and
in which order they stream.  No operation changes that, so whatever was done to a
machine from outside, pulses of single lines and switched refresh included, a reset
makes it the machine that was built.
-/

namespace BitSerial

/-! ## Plates -/

namespace Bank

variable {channels words : Nat}

/-- What is written on a bank: how it is called and in which order it streams. -/
def plate (bank : Bank channels words) : String × StreamOrder :=
  (bank.name, bank.order)

/-- A request works on channels only. -/
theorem plate_serve (request : Request) (bank : Bank channels words) :
    (bank.serve request).2.plate = bank.plate := by
  have onChannel (channel : Nat) {act : Fin channels → Reply words × Bank channels words}
      (acts : ∀ channel, (act channel).2.plate = bank.plate) :
      (bank.onChannel channel act).2.plate = bank.plate := by
    rw [Bank.onChannel]
    split
    · rfl
    · exact acts _
  have onPlace (channel word : Nat)
      {act : Fin channels → Fin words → Reply words × Bank channels words}
      (acts : ∀ channel word, (act channel word).2.plate = bank.plate) :
      (bank.onPlace channel word act).2.plate = bank.plate := by
    rw [Bank.onPlace]
    split
    · rfl
    · exact acts _ _
  cases request with
  | pulse channel => exact onChannel channel fun _ => rfl
  | pulses channel count =>
      cases count with
      | zero => rfl
      | succ count => exact onChannel channel fun _ => rfl
  | align channel word => exact onPlace channel word fun _ _ => rfl
  | schedule channel bit => exact onChannel channel fun _ => rfl
  | front channel => exact onChannel channel fun _ => rfl
  | setRefresh channel refresh => exact onChannel channel fun _ => rfl
  | clock channel => exact onChannel channel fun _ => rfl
  | line channel => exact onChannel channel fun _ => rfl
  | read channel word => exact onPlace channel word fun _ _ => rfl
  | write channel word value => exact onPlace channel word fun _ _ => rfl
  | peek channel word => exact onPlace channel word fun _ _ => rfl
  | dump channel => exact onChannel channel fun _ => rfl
  | contents => rfl
  | reset => rfl

/-- A bank that is reset is blank but for its plate. -/
theorem reset_eq_blank (bank : Bank channels words) (positive : 0 < words) :
    bank.reset = .blank bank.name bank.order positive := by
  have lines : (bank.lines.map fun line => line.reset.setRefresh true) =
      Vector.replicate channels (DelayLine.blank (by omega)) := by
    apply Vector.ext
    intro channel inside
    rw [Vector.getElem_map, Vector.getElem_replicate]
    rfl
  rw [reset, lines]
  rfl

end Bank

theorem Registers.reset_eq_blank (registers : Registers) : registers.reset = .blank :=
  rfl

namespace Machine

variable {geometry : Geometry} {machine before after : Machine geometry}

/-- What is written on a machine's banks. -/
def plates (machine : Machine geometry) : (String × StreamOrder) × String × StreamOrder :=
  (machine.main.plate, machine.data.plate)

/-- What executing an instruction leaves alone: the plates, and the count of instructions,
which goes by steps. -/
def spared (machine : Machine geometry) :
    ((String × StreamOrder) × String × StreamOrder) × UInt64 :=
  (machine.plates, machine.cycles)

/-! ## Steps keep the plates -/

theorem spared_onRegisters (operation : Registers → Timed Registers)
    (machine : Machine geometry) : (machine.onRegisters operation).2.spared = machine.spared :=
  rfl

theorem spared_onRegister (name : RegisterName)
    (operation : DelayLine 40 → Timed (DelayLine 40)) (machine : Machine geometry) :
    (machine.onRegister name operation).2.spared = machine.spared :=
  rfl

theorem spared_onMain
    {transfer : DelayLine 40 → Bank 1 geometry.mainWords →
      Timed (DelayLine 40 × Bank 1 geometry.mainWords)}
    (keeps : ∀ register bank, (transfer register bank).result.2.plate = bank.plate)
    (machine : Machine geometry) : (machine.onMain transfer).2.spared = machine.spared :=
  congrArg (fun plate => ((plate, machine.data.plate), machine.cycles)) (keeps _ machine.main)

theorem spared_onData (name : RegisterName)
    {transfer : DelayLine 40 → Bank geometry.dataBanks geometry.bankWords →
      Timed (DelayLine 40 × Bank geometry.dataBanks geometry.bankWords)}
    (keeps : ∀ register bank, (transfer register bank).result.2.plate = bank.plate)
    (machine : Machine geometry) : (machine.onData name transfer).2.spared = machine.spared :=
  congrArg (fun plate => ((machine.main.plate, plate), machine.cycles)) (keeps _ machine.data)

theorem spared_jumpTo (address ticks : Nat) (machine : Machine geometry) :
    (machine.jumpTo address ticks).2.spared = machine.spared := by
  rw [jumpTo]
  split <;> rfl

theorem spared_jumpIf (condition : Arithmetic.Scan → Bool) (address : Nat)
    (machine : Machine geometry) :
    (machine.jumpIf condition address).2.spared = machine.spared := by
  rw [jumpIf]
  generalize Arithmetic.scan machine.registers = scanned
  split
  · exact spared_jumpTo address _ _
  · rfl

theorem spared_print (machine : Machine geometry) : machine.print.2.spared = machine.spared := by
  rw [print]
  generalize Arithmetic.scan machine.registers = scanned
  rfl

theorem spared_executePlain (op : PlainOp) (machine : Machine geometry) :
    (machine.executePlain op).2.spared = machine.spared := by
  cases op with
  | nop | hlt => rfl
  | pra => exact spared_print machine
  | _ => exact spared_onRegisters _ machine

theorem spared_executeWide (op : WideOp) (operand : Operand) (machine : Machine geometry) :
    (machine.executeWide op operand).2.spared = machine.spared := by
  cases op with
  | lai | lbi | lea | leb => exact spared_onRegister _ _ machine
  | rnd | mla => exact spared_onRegisters _ machine
  | ldp =>
      rw [executeWide]
      split
      · exact spared_onMain (fun _ _ => rfl) machine
      · rfl
  | stp =>
      rw [executeWide]
      split
      · exact spared_onMain (fun _ _ => rfl) machine
      · rfl
  | jmp | jmpa => exact spared_jumpTo _ _ machine
  | jza | jna =>
      rw [executeWide]
      exact spared_jumpIf _ _ machine

theorem spared_collate (bank : Fin geometry.dataBanks) (word : Fin geometry.bankWords)
    (machine : Machine geometry) : (machine.collate bank word).2.spared = machine.spared := by
  have kept : (Transfer.collate bank word machine.registers machine.data).result.2.plate =
      machine.data.plate := rfl
  rw [collate]
  generalize Transfer.collate bank word machine.registers machine.data = done at kept ⊢
  exact congrArg (fun plate => ((machine.main.plate, plate), machine.cycles)) kept

theorem spared_executeData (op : DataOp) (address : DataAddress) (machine : Machine geometry) :
    (machine.executeData op address).2.spared = machine.spared := by
  rw [executeData]
  split
  · rfl
  · cases op with
    | col => exact spared_collate _ _ machine
    | _ => exact spared_onData _ (fun _ _ => rfl) machine

/-- Executing an instruction turns lines and writes on them, and counts nothing. -/
theorem spared_execute (instruction : Instruction) (machine : Machine geometry) :
    (machine.execute instruction).2.spared = machine.spared := by
  cases instruction with
  | plain op => exact spared_executePlain op machine
  | wide op operand => exact spared_executeWide op operand machine
  | data op address => exact spared_executeData op address machine

theorem plates_execute (instruction : Instruction) (machine : Machine geometry) :
    (machine.execute instruction).2.plates = machine.plates :=
  congrArg Prod.fst (spared_execute instruction machine)

theorem cycles_execute (instruction : Instruction) (machine : Machine geometry) :
    (machine.execute instruction).2.cycles = machine.cycles :=
  congrArg Prod.snd (spared_execute instruction machine)

theorem plates_fetch (machine : Machine geometry) : machine.fetch.2.plates = machine.plates :=
  rfl

theorem plates_step (machine : Machine geometry) : machine.step.2.plates = machine.plates := by
  have cycled : machine.cycle.2.plates = machine.plates :=
    holds_cycle (P := fun after => after.plates = machine.plates) (plates_fetch machine)
      (fun instruction => (plates_execute instruction _).trans (plates_fetch machine))
      fun _ _ _ kept => kept
  exact holds_step (P := fun after => after.plates = machine.plates) rfl cycled fun _ kept => kept

theorem plates_runFor (count : Nat) (machine : Machine geometry) :
    (machine.runFor count).2.plates = machine.plates :=
  holds_runFor (P := fun after => after.plates = machine.plates)
    (fun after kept => (plates_step after).trans kept) count rfl

theorem plates_loadWords {words : List Word} (loaded : before.loadWords words = (.ok (), after)) :
    after.plates = before.plates := by
  rw [loadWords] at loaded
  split at loaded
  · cases loaded
  · cases loaded
    rfl

/-! ## Histories -/

/-- One thing done to a machine from outside.  A register's line may be changed in any
way: it may be pulsed, have a bit scheduled, have its refresh switched or be written
over.  A load may be refused, and a run counts if it comes to an end. -/
inductive Handles : Machine geometry → Machine geometry → Prop
  | loadWords {before after : Machine geometry} {words : List Word}
      {outcome : Except LoadError Unit} (tried : before.loadWords words = (outcome, after)) :
      Handles before after
  | loadProgram {before after : Machine geometry} {program : Program}
      {outcome : Except LoadError Unit} (tried : before.loadProgram program = (outcome, after)) :
      Handles before after
  | step (before : Machine geometry) : Handles before before.step.2
  | run {before after : Machine geometry} {fuel : Nat} {outcome : Except StepError UInt64}
      (ended : before.run? fuel = some (outcome, after)) : Handles before after
  | runLimited (maximum : UInt64) (before : Machine geometry) :
      Handles before (before.runLimited maximum).2
  | reset (before : Machine geometry) : Handles before before.reset
  | takeOutput (before : Machine geometry) : Handles before before.takeOutput.2
  | register (name : RegisterName) (change : DelayLine 40 → DelayLine 40)
      (before : Machine geometry) :
      Handles before
        { before with registers := before.registers.set name (change (before.registers.get name)) }
  | data (request : Bank.Request) (before : Machine geometry) :
      Handles before { before with data := (before.data.serve request).2 }

/-- Any number of things done one after the other. -/
abbrev Handled : Machine geometry → Machine geometry → Prop :=
  Relation.ReflTransGen Handles

theorem Handles.plates (handles : before.Handles after) : after.plates = before.plates := by
  cases handles with
  | loadWords tried =>
      exact holds_loadWords (P := fun after => after.plates = before.plates) rfl
        plates_loadWords tried
  | loadProgram tried =>
      exact holds_loadProgram (P := fun after => after.plates = before.plates) rfl
        plates_loadWords tried
  | step => exact plates_step before
  | @run _ _ fuel outcome ended =>
      obtain ⟨-, rfl⟩ := eq_runFor_of_run ended
      exact plates_runFor fuel before
  | runLimited maximum =>
      obtain ⟨count, same⟩ := exists_runFor_eq_runLimited maximum before
      rw [same, plates_runFor count before]
  | reset => rfl
  | takeOutput => rfl
  | register name change => rfl
  | data request => exact congrArg (before.main.plate, ·) (Bank.plate_serve request before.data)

theorem Handled.plates (handled : before.Handled after) : after.plates = before.plates := by
  induction handled with
  | refl => rfl
  | tail _ last ih => exact last.plates.trans ih

/-- Behind its plates a reset machine is fresh. -/
theorem reset_eq_fresh (valid : geometry.Valid)
    (plates : machine.plates = (("main", .highFirst), "data", .lowFirst)) :
    machine.reset = fresh valid := by
  have main : machine.main.reset = .blank "main" .highFirst valid.mainWords_pos := by
    rw [Bank.reset_eq_blank machine.main valid.mainWords_pos]
    obtain ⟨name, order⟩ := Prod.mk.inj (Prod.mk.inj plates).1
    rw [name, order]
  have data : machine.data.reset = .blank "data" .lowFirst valid.bankWords_pos := by
    rw [Bank.reset_eq_blank machine.data valid.bankWords_pos]
    obtain ⟨name, order⟩ := Prod.mk.inj (Prod.mk.inj plates).2
    rw [name, order]
  have counter : machine.around 0 = ⟨0, valid.mainWords_pos⟩ := Fin.ext (Nat.zero_mod _)
  rw [reset, main, data, counter, Registers.reset_eq_blank]
  rfl

/-- Whatever was done to a machine since it was built, a reset undoes. -/
theorem Handled.reset_eq (built : build? geometry = .ok before) (handled : before.Handled after) :
    after.reset = before := by
  obtain ⟨valid, rfl⟩ := eq_fresh_of_build built
  exact reset_eq_fresh valid handled.plates

end Machine

end BitSerial
