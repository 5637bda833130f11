import BitSerial.DelayLine

/-!
# Registers

Three lines of one word each: A accumulates, B is the other operand, S is
scratch.  They turn like memory does, lowest bit first, and between
instructions a register's head is at bit 0.
-/

namespace BitSerial

/-- A register's name. -/
inductive RegisterName
  | a
  | b
  | s
  deriving DecidableEq

/-- The letter of a register. -/
def RegisterName.letter : RegisterName → String
  | .a => "A"
  | .b => "B"
  | .s => "S"

/-- The register that a letter of either case names. -/
def RegisterName.ofLetter? : String → Option RegisterName
  | "A" | "a" => some .a
  | "B" | "b" => some .b
  | "S" | "s" => some .s
  | _ => none

/-- The register file. -/
structure Registers where
  a : DelayLine 40
  b : DelayLine 40
  s : DelayLine 40
  deriving DecidableEq

namespace Registers

/-- Registers that hold zero. -/
def blank : Registers :=
  let zero : DelayLine 40 := DelayLine.blank (by decide)
  ⟨zero, zero, zero⟩

/-- A register's line. -/
def get (registers : Registers) : RegisterName → DelayLine 40
  | .a => registers.a
  | .b => registers.b
  | .s => registers.s

/-- Exchange a register's line. -/
def set (name : RegisterName) (line : DelayLine 40) (registers : Registers) : Registers :=
  match name with
  | .a => { registers with a := line }
  | .b => { registers with b := line }
  | .s => { registers with s := line }

/-- The word in a register, read off its cells without a pulse. -/
def peek (registers : Registers) (name : RegisterName) : Word :=
  StreamOrder.lowFirst.collect (registers.get name).bits

/-- Write over a register for one word time. -/
def poke (name : RegisterName) (value : Word) (registers : Registers) : Registers :=
  registers.set name ((registers.get name).writeAll (StreamOrder.lowFirst.bits value))

/-- Clear every register and switch its refresh on. -/
def reset : Registers → Registers
  | ⟨a, b, s⟩ => ⟨a.reset.setRefresh true, b.reset.setRefresh true, s.reset.setRefresh true⟩

/-- The registers for inspection. -/
def inspect (registers : Registers) : String :=
  "Registers \x7b a: " ++ (registers.peek .a).inspect ++ ", b: " ++ (registers.peek .b).inspect ++
    ", s: " ++ (registers.peek .s).inspect ++ " \x7d"

end Registers

end BitSerial
