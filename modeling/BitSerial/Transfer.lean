import BitSerial.Arithmetic
import BitSerial.Bank

/-!
# Transfers between registers and banks

A transfer waits for its word to come round and then takes one pulse per bit.
Bits are copied in the order they stream; nothing turns them round.
-/

namespace BitSerial.Transfer

variable {channels words : Nat}

/-- Copy a register into a word of a bank.  The register keeps its value. -/
def store (channel : Fin channels) (word : Fin words) (register : DelayLine 40)
    (bank : Bank channels words) : Timed (DelayLine 40 × Bank channels words) :=
  let wait := bank.waitFor channel word
  let aligned := bank.align channel word
  let (register, line) := DelayLine.copy 40 (aligned.line channel) register
  ⟨wait + 40, register, aligned.setLine channel line⟩

/-- Move a register into a word of a bank.  The register is left zero. -/
def storeClearing (channel : Fin channels) (word : Fin words) (register : DelayLine 40)
    (bank : Bank channels words) : Timed (DelayLine 40 × Bank channels words) :=
  let wait := bank.waitFor channel word
  let aligned := bank.align channel word
  let (register, line) := DelayLine.move 40 (aligned.line channel) register
  ⟨wait + 40, register, aligned.setLine channel line⟩

/-- Copy a word of a bank into a register. -/
def load (channel : Fin channels) (word : Fin words) (register : DelayLine 40)
    (bank : Bank channels words) : Timed (DelayLine 40 × Bank channels words) :=
  let wait := bank.waitFor channel word
  let aligned := bank.align channel word
  let (line, register) := DelayLine.copy 40 register (aligned.line channel)
  ⟨wait + 40, register, aligned.setLine channel line⟩

/-- Add the bits that two lines share into a third, with a carry running
through.  The sum's line is given back first. -/
def rippleMasked : Nat → Bit → DelayLine 40 → DelayLine 40 → DelayLine 40 →
    DelayLine 40 × DelayLine 40 × DelayLine 40
  | 0, _, sum, mask, addend => (sum, mask, addend)
  | count + 1, carry, sum, mask, addend =>
      let digit := Bit.fullAdd sum.front (addend.front && mask.front) carry
      rippleMasked count digit.2 (sum.write digit.1) mask.pulse addend.pulse

/-- S := the word, then A := A + (S and B).  A and B turn along while S is
filled, so that all three are in phase for the sum. -/
def collate (channel : Fin channels) (word : Fin words) (registers : Registers)
    (bank : Bank channels words) : Timed (Registers × Bank channels words) :=
  let wait := bank.waitFor channel word
  let aligned := bank.align channel word
  let (line, s) := DelayLine.copy 40 registers.s (aligned.line channel)
  let (a, b, s) := rippleMasked 40 false (registers.a.advance 40) (registers.b.advance 40) s
  ⟨wait + 80, ⟨a, b, s⟩, aligned.setLine channel line⟩

/-- Copy a register over a word of the program line.  Refresh is off for the
length of the copy and on afterwards. -/
def storeProgram (channel : Fin channels) (word : Fin words) (register : DelayLine 40)
    (bank : Bank channels words) : Timed (DelayLine 40 × Bank channels words) :=
  let wait := bank.waitFor channel word
  let aligned := bank.align channel word
  let (register, line) :=
    DelayLine.copy 40 ((aligned.line channel).setRefresh false) register
  ⟨wait + 40, register, aligned.setLine channel (line.setRefresh true)⟩

end BitSerial.Transfer
