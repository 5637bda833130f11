import BitSerial.Debugger.Breakpoints
import BitSerial.Debugger.Status
import BitSerial.Listing
import BitSerial.Machine.Load
import BitSerial.Machine.Step

/-!
# Debugger

A machine with the program it was loaded with, breakpoints, and a view of main
memory.  While it runs, every tick takes one step; it stops in front of a
breakpoint, at a failed step, or one tick after the machine has halted.
-/

namespace BitSerial

/-- A machine under observation. -/
structure Debugger (geometry : Geometry) where
  machine : Machine geometry
  /-- The program that a reset loads again. -/
  program : Program
  breakpoints : Breakpoints
  /-- Whether ticks take steps. -/
  running : Bool
  status : Status
  /-- The address of the first row in view. -/
  scroll : Nat

/-- A row of the memory view. -/
structure MemoryRow where
  address : Nat
  /-- The word as a statement. -/
  text : List Char
  /-- Whether the next instruction stands here. -/
  atCounter : Bool
  /-- Whether the word is at the head of the line. -/
  atHead : Bool
  atBreakpoint : Bool
  deriving DecidableEq

namespace Debugger

variable {geometry : Geometry}

/-- Start with a program on a fresh machine. -/
def start (geometry : Geometry) (program : Program) : Except MachineError (Debugger geometry) :=
  match Machine.build? geometry with
  | .error error => .error error
  | .ok fresh =>
      match fresh.loadProgram program with
      | (.error error, _) => .error (.load error)
      | (.ok _, machine) =>
          .ok {
            machine, program
            breakpoints := .empty
            running := false
            status := .ready
            scroll := machine.base }

/-- Take one step. -/
def step (debugger : Debugger geometry) : Debugger geometry :=
  let before := debugger.machine
  match before.state with
  | .halted => { debugger with status := .notRunning .halted, running := false }
  | .running =>
      match before.step with
      | (.ok instruction, machine) =>
          { debugger with
            machine
            status := .stepped before.counter instruction.opcode (machine.ticks - before.ticks) }
      | (.error error, machine) =>
          { debugger with machine, status := .failed error, running := false }

/-- Set the machine going. -/
def run (debugger : Debugger geometry) : Debugger geometry :=
  { debugger with running := true, status := .running }

/-- Hold the machine. -/
def pause (debugger : Debugger geometry) : Debugger geometry :=
  { debugger with running := false }

/-- Stop if the machine goes and stands in front of a breakpoint. -/
def heed (debugger : Debugger geometry) : Debugger geometry :=
  let counter := debugger.machine.counter
  if debugger.running && debugger.breakpoints.contains counter then
    { debugger with running := false, status := .stopped counter }
  else
    debugger

/-- Take one step if the machine is to go. -/
def tick (debugger : Debugger geometry) : Debugger geometry :=
  let machine := debugger.machine
  if debugger.running then
    match machine.state with
    | .halted =>
        { debugger with running := false, status := .finished machine.cycles machine.ticks }
    | .running => debugger.step.heed
  else
    debugger

/-- Set a breakpoint at the counter, or remove the one that is there. -/
def toggleBreakpoint (debugger : Debugger geometry) : Debugger geometry :=
  let counter := debugger.machine.counter
  if debugger.breakpoints.contains counter then
    { debugger with
      breakpoints := debugger.breakpoints.erase counter
      status := .breakpointRemoved counter }
  else
    { debugger with
      breakpoints := debugger.breakpoints.insert counter
      status := .breakpointSet counter }

/-- Set a breakpoint anywhere, and say whether there was none. -/
def setBreakpoint (address : Nat) (debugger : Debugger geometry) : Bool × Debugger geometry :=
  (!debugger.breakpoints.contains address,
    { debugger with breakpoints := debugger.breakpoints.insert address })

/-- Load the program again into a cleared machine. -/
def reset (debugger : Debugger geometry) : Debugger geometry :=
  let cleared := debugger.machine.reset
  match cleared.loadProgram debugger.program with
  | (.ok _, machine) => { debugger with machine, status := .reset, running := false }
  | (.error error, machine) =>
      { debugger with machine, status := .refused error, running := false }

/-- Move the view one row up. -/
def scrollUp (debugger : Debugger geometry) : Debugger geometry :=
  { debugger with scroll := debugger.scroll - 1 }

/-- Move the view one row down, at most to the last word. -/
def scrollDown (debugger : Debugger geometry) : Debugger geometry :=
  { debugger with scroll := min (debugger.scroll + 1) (geometry.mainWords - 1) }

/-- The row of an address, if main memory has it. -/
def memoryRow? (debugger : Debugger geometry) (address : Nat) : Option MemoryRow :=
  match debugger.machine.programWord? address with
  | .error _ => none
  | .ok word =>
      some {
        address
        text := Word.text word
        atCounter := address = debugger.machine.counter
        atHead := address = debugger.machine.clock
        atBreakpoint := debugger.breakpoints.contains address }

/-- The rows in a view of a given height, less if main memory ends before. -/
def memoryRows (debugger : Debugger geometry) (height : Nat) : List MemoryRow :=
  let stop := min geometry.mainWords (debugger.scroll + height)
  (List.range' debugger.scroll (stop - debugger.scroll)).filterMap debugger.memoryRow?

/-- The rows in a view of any height.  There are none to tell if the row behind
the last one has no count for its address. -/
def memoryRows? (debugger : Debugger geometry) (height : Nat) : Option (List MemoryRow) :=
  (Count.add? debugger.scroll height).map fun _ => debugger.memoryRows height

/-- The first label of an address. -/
def labelAt? (debugger : Debugger geometry) (address : Nat) : Option String :=
  if debugger.program.base ≤ address then
    (debugger.program.labelsAt (address - debugger.program.base)).head?
  else
    none

end Debugger

end BitSerial
