import BitSerial.Machine.Run

/-!
# Properties that steps keep

A property holds after a step if it holds after the fetch and after whatever is executed
then, and neither accounting for an instruction nor halting spoils it.  Runs keep what
steps keep, with a bound or without.
-/

namespace BitSerial.Machine

variable {geometry : Geometry} {P : Machine geometry → Prop} {machine : Machine geometry}

theorem holds_cycle (fetched : P machine.fetch.2)
    (executed : ∀ instruction, P (machine.fetch.2.execute instruction).2)
    (completed : ∀ instruction flow after, P after → P (after.complete instruction flow)) :
    P machine.cycle.2 := by
  rw [cycle]
  generalize machine.fetch = fetch at fetched executed ⊢
  rcases fetch with ⟨word, ready⟩
  dsimp only at fetched executed ⊢
  cases Instruction.decode word with
  | error unknown => exact fetched
  | ok instruction =>
      have done := executed instruction
      dsimp only
      generalize ready.execute instruction = outcome at done ⊢
      rcases outcome with ⟨result, after⟩
      cases result with
      | error error => exact done
      | ok flow => exact completed instruction flow after done

theorem holds_step (holds : P machine) (cycled : P machine.cycle.2)
    (halted : ∀ after : Machine geometry, P after → P { after with state := .halted }) :
    P machine.step.2 := by
  rw [step]
  cases machine.state with
  | halted => exact holds
  | running =>
      dsimp only
      generalize machine.cycle = outcome at cycled ⊢
      rcases outcome with ⟨result, after⟩
      cases result with
      | error error => exact halted after cycled
      | ok instruction => exact cycled

theorem holds_runFor (stepped : ∀ machine : Machine geometry, P machine → P machine.step.2)
    (count : Nat) (holds : P machine) : P (machine.runFor count).2 := by
  induction count generalizing machine with
  | zero => exact holds
  | succ count ih =>
      have next := stepped machine holds
      rw [runFor]
      cases machine.state with
      | halted => exact holds
      | running =>
          dsimp only
          generalize machine.step = outcome at next ⊢
          rcases outcome with ⟨result, after⟩
          cases result with
          | error error => exact next
          | ok instruction => exact ih next

theorem holds_runLimited (stepped : ∀ machine : Machine geometry, P machine → P machine.step.2)
    (maximum : UInt64) (holds : P machine) : P (machine.runLimited maximum).2 := by
  obtain ⟨count, same⟩ := exists_runFor_eq_runLimited maximum machine
  rw [same]
  exact holds_runFor stepped count holds

end BitSerial.Machine
