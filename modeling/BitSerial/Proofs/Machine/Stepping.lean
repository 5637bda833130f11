import BitSerial.Machine.Step

/-!
# Steps one after the other

A machine may be stepped any number of times, whether it runs or not.  A step that fails
leaves it halted.
-/

namespace BitSerial.Machine

variable {geometry : Geometry}

/-- A machine after a number of steps, however each of them ended. -/
def stepped (machine : Machine geometry) : Nat → Machine geometry
  | 0 => machine
  | count + 1 => (machine.stepped count).step.2

/-- The first step can be taken apart from the rest. -/
theorem stepped_step (machine : Machine geometry) (count : Nat) :
    machine.step.2.stepped count = machine.stepped (count + 1) := by
  induction count with
  | zero => rfl
  | succ count ih => exact congrArg (fun machine => machine.step.2) ih

theorem stepped_add (machine : Machine geometry) (first second : Nat) :
    (machine.stepped first).stepped second = machine.stepped (first + second) := by
  induction second with
  | zero => rfl
  | succ second ih => exact congrArg (fun machine => machine.step.2) ih

/-- Only a machine that runs takes a step. -/
theorem running_of_step_ok {machine : Machine geometry} {instruction : Instruction}
    (stepped : machine.step.1 = .ok instruction) : machine.state = .running := by
  cases state : machine.state with
  | running => rfl
  | halted =>
      rw [step, state] at stepped
      cases stepped

theorem halted_of_step_error {machine : Machine geometry} {error : StepError}
    (failed : machine.step.1 = .error error) : machine.step.2.state = .halted := by
  rw [step] at failed ⊢
  cases state : machine.state with
  | halted => exact state
  | running =>
      rw [state] at failed
      dsimp only at failed ⊢
      rcases cycled : machine.cycle with ⟨outcome, after⟩
      rw [cycled] at failed
      cases outcome with
      | ok instruction => cases failed
      | error reason => rfl

end BitSerial.Machine
