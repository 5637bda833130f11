import BitSerial.Machine.State
import BitSerial.Program

/-!
# Loading programs

A program goes to the tail of main memory.  The whole line is written over in
one revolution with refresh off, which clears every word before the program;
then the first program word is brought to the head.
-/

namespace BitSerial.Machine

variable {geometry : Geometry}

/-- Write over a line from its head on: so many words of silence, then the
words of a program. -/
def imprint (silence : Nat) (program : List Word) (line : DelayLine (geometry.mainWords * 40)) :
    DelayLine (geometry.mainWords * 40) :=
  let silent := (line.setRefresh false).advance (silence * 40)
  (silent.writeAll (program.flatMap StreamOrder.highFirst.bits)).setRefresh true

/-- Load words at the tail of main memory and make the machine ready to run
them.  A refusal comes before the first pulse. -/
def loadWords (program : List Word) (machine : Machine geometry) :
    Except LoadError Unit × Machine geometry :=
  if geometry.mainWords < program.length then
    (.error (.programTooLarge program.length geometry.mainWords), machine)
  else
    let base := geometry.mainWords - program.length
    let start := machine.around 0
    let entry := machine.around base
    let main := (machine.main.align Bank.sole start).modifyLine Bank.sole (imprint base program)
    let ticks :=
      machine.main.waitFor Bank.sole start + geometry.mainWords * 40 +
        main.waitFor Bank.sole entry
    (.ok (), { machine with
      main := main.align Bank.sole entry
      ticks := machine.ticks + UInt64.ofNat ticks
      base := base
      counter := entry
      state := .running })

/-- Load an assembled program.  Its absolute operands hold only at the address
it was assembled for, so it is refused anywhere else. -/
def loadProgram (program : Program) (machine : Machine geometry) :
    Except LoadError Unit × Machine geometry :=
  if geometry.mainWords < program.size then
    (.error (.programTooLarge program.size geometry.mainWords), machine)
  else
    let expected := geometry.mainWords - program.size
    if program.base = expected then
      machine.loadWords program.words
    else
      (.error (.baseMismatch program.base expected), machine)

end BitSerial.Machine
