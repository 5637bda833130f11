import BitSerial.Proofs.DelayLine.Revolutions
import BitSerial.Proofs.StreamOrder.Words
import BitSerial.Registers

/-!
# Registers written over

To poke a word into a register is to write one revolution of its line.  The laws of
poking are those of an assignment: the last one counts, and one that changes nothing is
none.  An operation that is shown equal to a poke therefore leaves the new word in phase
and everything else alone.
-/

namespace BitSerial.Registers

open StreamOrder

variable {registers : Registers}

/-- Registers that pulses alone only turn. -/
def AtRest (registers : Registers) : Prop :=
  ∀ name, (registers.get name).Settled

/-- Registers of which one has got a word and the others are as they were, all of them at
rest and with the head where it was. -/
structure Overwritten (name : RegisterName) (value : Word) (before after : Registers) :
    Prop where
  word : after.peek name = value
  others : ∀ other, other ≠ name → after.get other = before.get other
  rest : after.AtRest
  phase : ∀ other, (after.get other).head = (before.get other).head

/-! ## Exchanging lines -/

@[simp]
theorem get_set (registers : Registers) (name : RegisterName) (line : DelayLine 40) :
    (registers.set name line).get name = line := by
  cases name <;> rfl

theorem get_set_of_ne (registers : Registers) {name other : RegisterName} (apart : other ≠ name)
    (line : DelayLine 40) : (registers.set name line).get other = registers.get other := by
  cases name <;> cases other <;> first | rfl | exact absurd rfl apart

@[simp]
theorem set_set (registers : Registers) (name : RegisterName) (first second : DelayLine 40) :
    (registers.set name first).set name second = registers.set name second := by
  cases name <;> rfl

/-- Different registers may be exchanged in either order. -/
theorem set_comm (registers : Registers) {first second : RegisterName} (apart : first ≠ second)
    (firstLine secondLine : DelayLine 40) :
    (registers.set first firstLine).set second secondLine =
      (registers.set second secondLine).set first firstLine := by
  cases first <;> cases second <;> first | rfl | exact absurd rfl apart

@[simp]
theorem set_get (registers : Registers) (name : RegisterName) :
    registers.set name (registers.get name) = registers := by
  cases name <;> rfl

/-! ## Poking words -/

theorem poke_a (registers : Registers) (value : Word) :
    registers.poke .a value =
      ⟨registers.a.writeAll (lowFirst.bits value), registers.b, registers.s⟩ :=
  rfl

theorem poke_b (registers : Registers) (value : Word) :
    registers.poke .b value =
      ⟨registers.a, registers.b.writeAll (lowFirst.bits value), registers.s⟩ :=
  rfl

theorem poke_s (registers : Registers) (value : Word) :
    registers.poke .s value =
      ⟨registers.a, registers.b, registers.s.writeAll (lowFirst.bits value)⟩ :=
  rfl

theorem get_poke (registers : Registers) (name : RegisterName) (value : Word) :
    (registers.poke name value).get name =
      (registers.get name).writeAll (lowFirst.bits value) :=
  get_set registers name _

theorem get_poke_of_ne (registers : Registers) {name other : RegisterName}
    (apart : other ≠ name) (value : Word) :
    (registers.poke name value).get other = registers.get other :=
  get_set_of_ne registers apart _

/-- The word read off a register streams as the register's cells. -/
theorem bits_peek (registers : Registers) (name : RegisterName) :
    lowFirst.bits (registers.peek name) = (registers.get name).bits :=
  bits_collect lowFirst (registers.get name).length_bits

/-- Whatever was pending or switched off, a poked word is there. -/
@[simp]
theorem peek_poke (registers : Registers) (name : RegisterName) (value : Word) :
    (registers.poke name value).peek name = value := by
  rw [peek, get_poke, DelayLine.bits_writeAll_length _ (length_bits lowFirst value), collect_bits]

theorem peek_poke_of_ne (registers : Registers) {name other : RegisterName}
    (apart : other ≠ name) (value : Word) :
    (registers.poke name value).peek other = registers.peek other := by
  rw [peek, get_poke_of_ne registers apart, peek]

/-- The last word poked counts. -/
@[simp]
theorem poke_poke (registers : Registers) (name : RegisterName) (first second : Word) :
    (registers.poke name first).poke name second = registers.poke name second := by
  have written := DelayLine.writeAll_writeAll (registers.get name)
    (length_bits lowFirst first) (length_bits lowFirst second)
  rw [poke, get_poke, written, poke, set_set, poke]

theorem poke_comm (registers : Registers) {first second : RegisterName} (apart : first ≠ second)
    (firstValue secondValue : Word) :
    (registers.poke first firstValue).poke second secondValue =
      (registers.poke second secondValue).poke first firstValue := by
  rw [poke, get_poke_of_ne registers apart.symm, poke, set_comm registers apart, poke,
    get_poke_of_ne registers apart, poke]

/-- A register at rest may be poked with its own word. -/
theorem poke_peek {name : RegisterName} (settled : (registers.get name).Settled) :
    registers.poke name (registers.peek name) = registers := by
  rw [poke, bits_peek, DelayLine.writeAll_bits settled, set_get]

/-- A poke turns every register a whole number of times round, or not at all. -/
theorem head_poke (registers : Registers) (name other : RegisterName) (value : Word) :
    ((registers.poke name value).get other).head = (registers.get other).head := by
  by_cases same : other = name
  · subst same
    rw [get_poke, DelayLine.head_writeAll_length _ (length_bits lowFirst value)]
  · rw [get_poke_of_ne registers same]

namespace AtRest

theorem blank : blank.AtRest := by
  rintro (_ | _ | _) <;> exact ⟨rfl, rfl⟩

theorem poke (rest : registers.AtRest) (name : RegisterName) (value : Word) :
    (registers.poke name value).AtRest := by
  intro other
  by_cases same : other = name
  · subst same
    rw [get_poke]
    exact (rest other).writeAll _
  · rw [get_poke_of_ne registers same]
    exact rest other

theorem overwritten (rest : registers.AtRest) (name : RegisterName) (value : Word) :
    Overwritten name value registers (registers.poke name value) where
  word := peek_poke registers name value
  others _ apart := get_poke_of_ne registers apart value
  rest := rest.poke name value
  phase other := head_poke registers name other value

end AtRest

end BitSerial.Registers
