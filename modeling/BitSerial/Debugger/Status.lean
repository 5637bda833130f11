import BitSerial.Machine.State

/-!
# Debugger status

What the debugger reports about the operation it did last.
-/

namespace BitSerial

/-- The report on a debugger's last operation. -/
inductive Status
  /-- Nothing was done yet. -/
  | ready
  /-- A step of a halted machine was asked for. -/
  | notRunning (state : RunState)
  /-- The instruction at an address was executed. -/
  | stepped (address : Nat) (opcode : Opcode) (ticks : UInt64)
  /-- A step failed. -/
  | failed (error : StepError)
  /-- The machine was set going. -/
  | running
  /-- The machine was found halted after so many instructions and pulses. -/
  | finished (cycles ticks : UInt64)
  /-- The machine stands in front of a breakpoint. -/
  | stopped (address : Nat)
  /-- A breakpoint was set. -/
  | breakpointSet (address : Nat)
  /-- A breakpoint was removed. -/
  | breakpointRemoved (address : Nat)
  /-- The program was loaded again. -/
  | reset
  /-- The program could not be loaded again. -/
  | refused (error : LoadError)
  deriving DecidableEq

/-- The text of a status. -/
def Status.message : Status → String
  | .ready => "Ready. Press 's' to step, 'r' to run, 'q' to quit."
  | .notRunning state => "CPU halted: " ++ state.name
  | .stepped address opcode ticks =>
      "PC=" ++ String.ofList (Numeral.padded 4 (Numeral.decimal address)) ++ ": " ++
        opcode.mnemonic ++ "  (+" ++ toString ticks.toNat ++ " ticks)"
  | .failed error => "Error: " ++ error.message
  | .running => "Running..."
  | .finished cycles ticks => s!"Halted after {cycles.toNat} cycles, {ticks.toNat} ticks"
  | .stopped address => s!"Breakpoint at PC={address}"
  | .breakpointSet address => s!"Set breakpoint at PC={address}"
  | .breakpointRemoved address => s!"Removed breakpoint at PC={address}"
  | .reset => "Reset. Ready."
  | .refused error => "Error: " ++ error.message

end BitSerial
