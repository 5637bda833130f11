import BitSerial.DelayLine.Copy
import BitSerial.Registers

/-!
# Bit-serial arithmetic

Every operation drives the registers pulse by pulse and says how many pulses it
took.  A word streams lowest bit first, so the carry of one pulse is used by
the next; after a whole word every register it touched is in phase again.
-/

namespace BitSerial

/-- Something made by a number of pulses. -/
structure Timed (α : Type) where
  ticks : Nat
  result : α

namespace Arithmetic

/-- Inject an operand, zero above bit 31.  Low first it is a number to
calculate with; high first it lines up with the operand of a word that was
fetched from the program line. -/
def loadImmediate (operand : Operand) (order : StreamOrder) (line : DelayLine 40) :
    Timed (DelayLine 40) :=
  ⟨40, line.writeAll (order.bits (operand.setWidth 40))⟩

/-- Add one line into another, both pulsed together, with a carry running
through.  The sum's line is given back first. -/
def ripple : Nat → Bit → DelayLine 40 → DelayLine 40 → DelayLine 40 × DelayLine 40
  | 0, _, sum, addend => (sum, addend)
  | count + 1, carry, sum, addend =>
      let digit := Bit.fullAdd sum.front addend.front carry
      ripple count digit.2 (sum.write digit.1) addend.pulse

/-- A := A + B. -/
def add : Registers → Timed Registers
  | ⟨a, b, s⟩ =>
      let (a, b) := ripple 40 false a b
      ⟨40, ⟨a, b, s⟩⟩

/-- A := A + B, a number of times over, after some pulses already. -/
def addAfter : Nat → Nat → Registers → Timed Registers
  | 0, ticks, registers => ⟨ticks, registers⟩
  | count + 1, ticks, registers =>
      let sum := add registers
      addAfter count (ticks + sum.ticks) sum.result

/-- A := A + count * B, one ripple pass for each. -/
def multiplyAdd (count : Nat) (registers : Registers) : Timed Registers :=
  addAfter count 0 registers

/-- Complement the bits of a line as they pass. -/
def invert : Nat → DelayLine 40 → DelayLine 40
  | 0, line => line
  | count + 1, line => invert count (line.write !line.front)

/-- Run a carry through the bits of a line as they pass. -/
def carryThrough : Nat → Bit → DelayLine 40 → DelayLine 40
  | 0, _, line => line
  | count + 1, carry, line =>
      let digit := Bit.fullAdd line.front false carry
      carryThrough count digit.2 (line.write digit.1)

/-- B := -B: complement, then add one. -/
def negate : Registers → Timed Registers
  | ⟨a, b, s⟩ => ⟨80, ⟨a, carryThrough 40 true (invert 40 b), s⟩⟩

/-- One pulse of A with a zero behind.  Every bit is one nearer to the head
and bit 0 is lost, so the value is halved. -/
def shiftLeft : Registers → Timed Registers
  | ⟨a, b, s⟩ => ⟨1, ⟨a.write false, b, s⟩⟩

/-- Move A one cell away from the head, which no single pulse can.  A goes
into S, then a zero and the first thirty-nine bits of S come back into A; a
last pulse of S brings it into phase again. -/
def shiftRight : Registers → Timed Registers
  | ⟨a, b, s⟩ =>
      let (a, s) := DelayLine.move 40 s a
      let (s, a) := DelayLine.copy 39 (a.write false) s
      ⟨80, ⟨a, b, s.pulse⟩⟩

/-- Combine the bits of two lines into the first as they pass. -/
def combine (operation : Bit → Bit → Bit) : Nat → DelayLine 40 → DelayLine 40 →
    DelayLine 40 × DelayLine 40
  | 0, left, right => (left, right)
  | count + 1, left, right =>
      combine operation count (left.write (operation left.front right.front)) right.pulse

/-- A := A combined with B, bit by bit. -/
def logic (operation : Bit → Bit → Bit) : Registers → Timed Registers
  | ⟨a, b, s⟩ =>
      let (a, b) := combine operation 40 a b
      ⟨40, ⟨a, b, s⟩⟩

/-- Add S into A from A's present bit on.  The bits of S that would come to lie
above bit 39 pass by unused. -/
def addPartial (count : Nat) (a s : DelayLine 40) : DelayLine 40 × DelayLine 40 :=
  let (a, s) := ripple count false a s
  (a.advance (40 - count), s.advance (40 - count))

/-- Multiply by the bits of B that are left, after some pulses already.  Each
bit of B is used up at its head and moves A on by one, which puts the next
partial product one bit higher. -/
def multiplyRest : Nat → Nat → DelayLine 40 → DelayLine 40 → DelayLine 40 → Timed Registers
  | 0, ticks, a, b, s => ⟨ticks, ⟨a, b, s⟩⟩
  | left + 1, ticks, a, b, s =>
      if b.front then
        let (a, s) := addPartial (left + 1) a s
        multiplyRest left (ticks + 41) a.pulse (b.write false) s
      else
        multiplyRest left (ticks + 1) a.pulse (b.write false) s

/-- A := A * B by shifting and adding.  The multiplicand moves into S; B ends
as zero. -/
def multiply : Registers → Timed Registers
  | ⟨a, b, s⟩ =>
      let (a, s) := DelayLine.move 40 s a
      multiplyRest 40 40 a b s

/-- Clear the low bits of A, as many as said, and let the rest pass. -/
def round (count : Nat) : Registers → Timed Registers
  | ⟨a, b, s⟩ =>
      let cleared := min count 40
      ⟨40, ⟨(a.writeAll (List.replicate cleared false)).advance (40 - cleared), b, s⟩⟩

/-- What one pass over a register shows. -/
structure Scan where
  /-- Every bit was zero. -/
  zero : Bool
  /-- The last bit out was one. -/
  negative : Bool
  /-- The bits as a signed number. -/
  value : Int
  deriving DecidableEq

/-- What a word's bits, lowest first, show. -/
def Scan.ofBits (bits : List Bit) : Scan where
  zero := bits.all (! ·)
  negative := bits.getLastD false
  value := (StreamOrder.lowFirst.collect bits).signed

/-- Let A pass once and report on it. -/
def scan : Registers → Timed (Scan × Registers)
  | ⟨a, b, s⟩ =>
      let (bits, a) := a.emit 40
      ⟨40, Scan.ofBits bits, ⟨a, b, s⟩⟩

end Arithmetic

end BitSerial
