import BitSerial.Proofs.Debugger.Transparency

/-!
# Reachable debuggers

Whatever is done with a debugger, its machine is one that steps, resets and loading make
of a built machine.  So all that holds of reachable machines holds of the machine under
observation.
-/

namespace BitSerial.Debugger

variable {geometry : Geometry} {debugger : Debugger geometry}

/-- What can be made of a debugger by its own operations: it is started, any action is
taken, breakpoints are set anywhere, and it is reset. -/
inductive Reachable : Debugger geometry → Prop
  | start {program : Program} {debugger : Debugger geometry}
      (started : Debugger.start geometry program = .ok debugger) : Reachable debugger
  | act {debugger : Debugger geometry} (action : Action) (reachable : Reachable debugger) :
      Reachable (debugger.act action)
  | setBreakpoint {debugger : Debugger geometry} (address : Nat)
      (reachable : Reachable debugger) : Reachable (debugger.setBreakpoint address).2
  | reset {debugger : Debugger geometry} (reachable : Reachable debugger) :
      Reachable debugger.reset

theorem reachable_machine_reset (reachable : debugger.machine.Reachable) :
    debugger.reset.machine.Reachable := by
  rw [Debugger.reset]
  split
  · rename_i tried
    exact .loadProgram reachable.reset tried
  · rename_i tried
    exact .loadProgram reachable.reset tried

/-- The machine under observation is a reachable one. -/
theorem Reachable.machine (reachable : debugger.Reachable) : debugger.machine.Reachable := by
  induction reachable with
  | start started =>
      obtain ⟨fresh, built, loaded, -⟩ := exists_of_start started
      exact .loadProgram (.built built) loaded
  | act action _ ih =>
      rw [machine_act]
      split
      · exact ih.step
      · exact ih
  | setBreakpoint _ _ ih => exact ih
  | reset _ ih => exact reachable_machine_reset ih

end BitSerial.Debugger
