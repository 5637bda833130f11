import BitSerial.Machine.Run
import BitSerial.Proofs.Bank.RandomAccess
import BitSerial.Proofs.Machine.Loading

/-!
# Reachable machines

Whatever is done to a built machine from outside, in any order and whether it
succeeds or not, leaves it at rest between two instructions: a machine that
represents a state of the instruction set.
-/

namespace BitSerial

namespace WordMachine

variable {geometry : Geometry}

/-- Zeros everywhere, ready to run from an address. -/
def blank (start : Fin geometry.mainWords) : WordMachine geometry where
  a := 0
  b := 0
  s := 0
  main := fun _ => 0
  data := fun _ _ => 0
  counter := start
  base := 0
  state := .running
  cycles := 0
  output := #[]
  last := none

end WordMachine

namespace Machine

variable {geometry : Geometry}

/-- What can be made of a machine from outside: it is built, loaded, stepped, run
and reset, its output is taken, its registers are poked, and its data memory is
asked for words, whether it does what is asked or refuses.  A run counts if it comes
to an end. -/
inductive Reachable : Machine geometry → Prop
  | built {machine : Machine geometry} (built : build? geometry = .ok machine) :
      Reachable machine
  | loadWords {machine after : Machine geometry} {words : List Word}
      {outcome : Except LoadError Unit} (reachable : Reachable machine)
      (tried : machine.loadWords words = (outcome, after)) : Reachable after
  | loadProgram {machine after : Machine geometry} {program : Program}
      {outcome : Except LoadError Unit} (reachable : Reachable machine)
      (tried : machine.loadProgram program = (outcome, after)) : Reachable after
  | step {machine : Machine geometry} (reachable : Reachable machine) : Reachable machine.step.2
  | run {machine after : Machine geometry} {fuel : Nat} {outcome : Except StepError UInt64}
      (reachable : Reachable machine) (ended : machine.run? fuel = some (outcome, after)) :
      Reachable after
  | runLimited {machine : Machine geometry} (maximum : UInt64) (reachable : Reachable machine) :
      Reachable (machine.runLimited maximum).2
  | reset {machine : Machine geometry} (reachable : Reachable machine) : Reachable machine.reset
  | takeOutput {machine : Machine geometry} (reachable : Reachable machine) :
      Reachable machine.takeOutput.2
  | poke {machine : Machine geometry} (name : RegisterName) (value : Word)
      (reachable : Reachable machine) :
      Reachable { machine with registers := machine.registers.poke name value }
  | access {machine : Machine geometry} (access : Bank.Access) (reachable : Reachable machine) :
      Reachable { machine with data := (machine.data.serve access.request).2 }

variable {machine : Machine geometry} {state : WordMachine geometry}

/-! ## What is done from outside -/

theorem represents_fresh (valid : geometry.Valid) :
    (fresh valid).Represents (.blank ⟨0, valid.mainWords_pos⟩) where
  registers := Registers.hold_blank
  main := Bank.keeps_blank "main" .highFirst valid.mainWords_pos
  mainOrder := rfl
  mainAligned := congrArg (· % 40) (Bank.position_blank _ _ valid.mainWords_pos Bank.sole)
  data := Bank.keeps_blank "data" .lowFirst valid.bankWords_pos
  dataOrder := rfl
  counter := rfl
  base := rfl
  base_le := Nat.zero_le _
  running := rfl
  cycles := rfl
  output := rfl
  last := rfl

/-- The standard machine takes any words that it has room for. -/
theorem exists_represents_load (words : List Word) (fits : words.length ≤ 64) :
    ∃ machine : Machine {}, machine.Reachable ∧ machine.Represents
      ((WordMachine.blank ⟨0, Geometry.valid_standard.mainWords_pos⟩).load words) := by
  have built : build? {} = .ok (fresh Geometry.valid_standard) := rfl
  obtain ⟨machine, loaded⟩ := loadWords_of_le fits (fresh Geometry.valid_standard)
  exact ⟨machine, .loadWords (.built built) loaded,
    (represents_fresh Geometry.valid_standard).loadWords loaded⟩

/-- A machine that was built has a geometry that can be built, and nothing on it. -/
theorem eq_fresh_of_build {machine : Machine geometry} (built : build? geometry = .ok machine) :
    ∃ valid : geometry.Valid, machine = fresh valid := by
  rw [build?] at built
  split at built
  · cases built
  · rename_i valid _
    split at built
    · cases built
      exact ⟨valid, rfl⟩
    · cases built

theorem Represents.reset (represents : machine.Represents state) :
    machine.reset.Represents (.blank (machine.around 0)) where
  registers := Registers.hold_reset _
  main := Bank.keeps_reset machine.main
  mainOrder := represents.mainOrder
  mainAligned := congrArg (· % 40) (Bank.position_reset machine.main Bank.sole)
  data := Bank.keeps_reset machine.data
  dataOrder := represents.dataOrder
  counter := rfl
  base := rfl
  base_le := Nat.zero_le _
  running := rfl
  cycles := rfl
  output := rfl
  last := rfl

theorem Represents.takeOutput (represents : machine.Represents state) :
    machine.takeOutput.2.Represents { state with output := #[] } :=
  { represents with output := rfl }

theorem Represents.poke (represents : machine.Represents state) (name : RegisterName)
    (value : Word) :
    ∃ state, ({ machine with registers := machine.registers.poke name value } :
      Machine geometry).Represents state := by
  obtain ⟨a, b, s, hold⟩ := represents.registers.poke name value
  exact ⟨_, represents.setRegisters hold⟩

theorem Represents.access (represents : machine.Represents state) (access : Bank.Access) :
    ∃ state, ({ machine with data := (machine.data.serve access.request).2 } :
      Machine geometry).Represents state := by
  obtain ⟨-, served⟩ := represents.data.represents.serve access
  have order := served.order.trans (WordMemory.order_answer access _)
  exact ⟨_, represents.setData served.keeps order⟩

theorem Represents.loadProgram (represents : machine.Represents state) {program : Program}
    {after : Machine geometry} (loaded : machine.loadProgram program = (.ok (), after)) :
    after.Represents (state.load program.words) :=
  represents.loadWords (loadWords_of_loadProgram loaded)

/-- Runs of the machine are runs of the instruction set. -/
theorem Represents.runFor (represents : machine.Represents state) (count : Nat) :
    (machine.runFor count).1 = (state.runFor count).1 ∧
      (machine.runFor count).2.Represents (state.runFor count).2 := by
  induction count generalizing machine state with
  | zero => exact ⟨rfl, represents⟩
  | succ count ih =>
      obtain ⟨outcome, next⟩ := represents.step
      rw [Machine.runFor, WordMachine.runFor, ← represents.running]
      cases machine.state with
      | halted => exact ⟨rfl, represents⟩
      | running =>
          dsimp only
          generalize machine.step = concrete at outcome next ⊢
          generalize state.step = abstract at outcome next ⊢
          rcases concrete with ⟨result, after⟩
          rcases abstract with ⟨expected, next⟩
          dsimp only at outcome next
          subst outcome
          cases result with
          | error error => exact ⟨rfl, next⟩
          | ok instruction => exact ih next

/-- A run that ends leaves the machine that so many steps leave. -/
theorem eq_runFor_of_run {after : Machine geometry} {fuel : Nat}
    {outcome : Except StepError UInt64} (ended : machine.run? fuel = some (outcome, after)) :
    (machine.runFor fuel).1.map (fun _ => after.cycles - machine.cycles) = outcome ∧
      (machine.runFor fuel).2 = after := by
  rw [run?] at ended
  dsimp only at ended
  split at ended
  · cases ended
    exact ⟨rfl, rfl⟩
  · cases ended

/-! ## Whatever is done -/

theorem Reachable.represents_some (reachable : machine.Reachable) :
    ∃ state, machine.Represents state := by
  induction reachable with
  | built built =>
      obtain ⟨valid, rfl⟩ := eq_fresh_of_build built
      exact ⟨_, represents_fresh valid⟩
  | loadWords _ tried ih =>
      obtain ⟨state, represents⟩ := ih
      exact holds_loadWords (P := fun after => ∃ state, after.Represents state)
        ⟨_, represents⟩ (fun loaded => ⟨_, represents.loadWords loaded⟩) tried
  | loadProgram _ tried ih =>
      obtain ⟨state, represents⟩ := ih
      exact holds_loadProgram (P := fun after => ∃ state, after.Represents state)
        ⟨_, represents⟩ (fun loaded => ⟨_, represents.loadWords loaded⟩) tried
  | step _ ih =>
      obtain ⟨state, represents⟩ := ih
      exact ⟨_, represents.step.2⟩
  | run _ ended ih =>
      obtain ⟨state, represents⟩ := ih
      obtain ⟨-, rfl⟩ := eq_runFor_of_run ended
      exact ⟨_, (represents.runFor _).2⟩
  | @runLimited machine maximum _ ih =>
      obtain ⟨state, represents⟩ := ih
      obtain ⟨count, same⟩ := exists_runFor_eq_runLimited maximum machine
      exact ⟨_, same ▸ (represents.runFor count).2⟩
  | reset _ ih =>
      obtain ⟨state, represents⟩ := ih
      exact ⟨_, represents.reset⟩
  | takeOutput _ ih =>
      obtain ⟨state, represents⟩ := ih
      exact ⟨_, represents.takeOutput⟩
  | poke name value _ ih =>
      obtain ⟨state, represents⟩ := ih
      exact represents.poke name value
  | access access _ ih =>
      obtain ⟨state, represents⟩ := ih
      exact represents.access access

/-- A reachable machine represents what is read off it. -/
theorem Reachable.represents (reachable : machine.Reachable) :
    machine.Represents machine.view := by
  obtain ⟨state, represents⟩ := reachable.represents_some
  rw [represents.view_eq]
  exact represents

/-- A reachable machine is refined by its words: a step does to them, and says,
exactly what the instruction set does and says. -/
theorem Reachable.view_step (reachable : machine.Reachable) :
    (machine.step.1, machine.step.2.view) = machine.view.step := by
  obtain ⟨outcome, after⟩ := reachable.represents.step
  rw [outcome, after.view_eq]

/-- A program that writes over itself: the word at the last address stores zero
there, and the counter goes round. -/
theorem view_step_overwriting :
    ∃ machine : Machine {}, machine.Reachable ∧
      (machine.step.1, machine.step.2.view) = machine.view.step ∧
      machine.view.main 63 = 0x190000003F#40 ∧ machine.step.1 = .ok (.wide .stp 63) ∧
      machine.step.2.view.main 63 = 0 ∧ machine.step.2.view.counter = 0 := by
  obtain ⟨machine, reachable, represents⟩ := exists_represents_load [0x190000003F#40] (by decide)
  have step := reachable.view_step
  have outcome := congrArg Prod.fst step
  have after := congrArg Prod.snd step
  dsimp only at outcome after
  refine ⟨machine, reachable, step, ?_⟩
  rw [outcome, after, represents.view_eq]
  decide +kernel

/-- Only geometries that can be built have reachable machines. -/
theorem Reachable.valid (reachable : machine.Reachable) : geometry.Valid := by
  induction reachable with
  | built built =>
      obtain ⟨valid, _⟩ := eq_fresh_of_build built
      exact valid
  | loadWords _ _ ih | loadProgram _ _ ih | step _ ih | run _ _ ih | runLimited _ _ ih
  | reset _ ih | takeOutput _ ih | poke _ _ _ ih | access _ _ ih => exact ih

end Machine

end BitSerial
