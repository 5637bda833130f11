import BitSerial.Limits
import BitSerial.StreamOrder

/-!
# Delay lines

A delay line of `length` cells is a tape that never moves under a head that
does.  Each pulse emits the cell under the head, writes the injected bit in its
place and moves the head one cell on, so a bit comes round again exactly
`length` pulses after it was injected.  Cells are spoken of by their distance
behind the head: cell 0 is emitted next, the last one was injected last.
-/

namespace BitSerial

/-- A circulating line of `length` cells. -/
structure DelayLine (length : Nat) where
  /-- The cells, in an order that pulses do not change. -/
  tape : Vector Bit length
  /-- The place on the tape that the next pulse emits from. -/
  head : Fin length
  /-- A bit waiting to be injected by the next pulse. -/
  pending : Option Bit
  /-- Whether a bit that nothing replaces is injected again. -/
  refresh : Bool
  deriving DecidableEq

namespace DelayLine

variable {length : Nat}

/-- The bit a pulse injects: the pending one if there is one, else the emitted
one when refresh is on, else none. -/
def injected (emitted : Bit) (pending : Option Bit) (refresh : Bool) : Bit :=
  pending.getD (refresh && emitted)

/-- The next place round the tape. -/
def next : Fin length → Fin length
  | ⟨place, inside⟩ =>
      if more : place + 1 < length then ⟨place + 1, more⟩ else ⟨0, by omega⟩

/-- The line that holds given bits, first bit at the head. -/
def ofBits (bits : Vector Bit length) (positive : 0 < length) : DelayLine length :=
  ⟨bits, ⟨0, positive⟩, none, true⟩

/-- A line of zeros. -/
def blank (positive : 0 < length) : DelayLine length :=
  ofBits (Vector.replicate length false) positive

/-- A line of zeros, if it has a cell and memory has room for all of them. -/
def blank? (length : Nat) : Option (DelayLine length) :=
  if fits : 0 < length ∧ length < cellLimit then some (blank fits.1) else none

/-- The cell a distance behind the head, distances going round the line. -/
def peek (line : DelayLine length) (distance : Nat) : Bit :=
  have _inside : (line.head + distance) % length < length := Nat.mod_lt _ line.head.pos
  line.tape[(line.head + distance) % length]

/-- The bit the next pulse emits. -/
def front (line : DelayLine length) : Bit :=
  line.tape[line.head]

/-- The bit injected last. -/
def back (line : DelayLine length) : Bit :=
  line.peek (length - 1)

/-- All cells, from the head on. -/
def bits (line : DelayLine length) : List Bit :=
  (List.range length).map line.peek

/-- Advance the line by one cell. -/
def pulse : DelayLine length → DelayLine length
  | ⟨tape, head, pending, refresh⟩ =>
      ⟨tape.set head (injected tape[head] pending refresh), next head, none, refresh⟩

/-- Advance the line by a number of cells. -/
def advance : Nat → DelayLine length → DelayLine length
  | 0, line => line
  | count + 1, line => advance count line.pulse

/-- Make a bit the next one injected.  The last bit scheduled before a pulse
counts. -/
def schedule (bit : Bit) (line : DelayLine length) : DelayLine length :=
  { line with pending := some bit }

/-- Schedule a raw value, unless it is no bit. -/
def scheduleValue (value : Nat) (line : DelayLine length) :
    Except InvalidBit (DelayLine length) :=
  (Bit.ofNat? value).map fun bit => line.schedule bit

/-- Inject one bit. -/
def write (bit : Bit) (line : DelayLine length) : DelayLine length :=
  (line.schedule bit).pulse

/-- Inject bits one after the other. -/
def writeAll : List Bit → DelayLine length → DelayLine length
  | [], line => line
  | bit :: rest, line => writeAll rest (line.write bit)

/-- Switch refresh on or off. -/
def setRefresh (refresh : Bool) (line : DelayLine length) : DelayLine length :=
  { line with refresh }

/-- Collect the bits of some pulses behind those already emitted, which are
kept newest first. -/
def emitAfter : Nat → List Bit → DelayLine length → List Bit × DelayLine length
  | 0, emitted, line => (emitted.reverse, line)
  | count + 1, emitted, line => emitAfter count (line.front :: emitted) line.pulse

/-- The bits that a number of pulses emit, and the line after them. -/
def emit (count : Nat) (line : DelayLine length) : List Bit × DelayLine length :=
  emitAfter count [] line

/-- Clear every cell and forget the pending bit. -/
def reset (line : DelayLine length) : DelayLine length :=
  { line with
    tape := Vector.replicate length false
    head := ⟨0, line.head.pos⟩
    pending := none }

/-- Two lines that no sequence of pulses, writes and switches can tell apart. -/
def Alike (left right : DelayLine length) : Prop :=
  left.bits = right.bits ∧ left.pending = right.pending ∧ left.refresh = right.refresh

instance (left right : DelayLine length) : Decidable (Alike left right) :=
  inferInstanceAs (Decidable (_ ∧ _ ∧ _))

/-- The line for inspection: its cells as digits, the pending bit and the
switch. -/
def inspect (line : DelayLine length) : String :=
  let pending :=
    match line.pending with
    | none => "None"
    | some bit => "Some(" ++ (Bit.digit bit).toString ++ ")"
  "BitChannel \x7b cells: \"" ++ Bit.digits line.bits ++ "\", pending: " ++ pending ++
    ", refresh: " ++ toString line.refresh ++ " \x7d"

/-! ## What each operation does to the line -/

@[simp]
theorem length_bits (line : DelayLine length) : line.bits.length = length := by
  simp [bits]

@[simp]
theorem peek_zero (line : DelayLine length) : line.peek 0 = line.front := by
  simp [peek, front, Nat.mod_eq_of_lt line.head.isLt]

@[simp]
theorem val_next (place : Fin length) : (next place).val = (place.val + 1) % length := by
  rcases place with ⟨place, inside⟩
  simp only [next]
  split
  · rename_i more
    exact (Nat.mod_eq_of_lt more).symm
  · have : place + 1 = length := by omega
    simp [this]

@[simp]
theorem pending_pulse (line : DelayLine length) : line.pulse.pending = none :=
  rfl

@[simp]
theorem refresh_pulse (line : DelayLine length) : line.pulse.refresh = line.refresh :=
  rfl

@[simp]
theorem head_pulse (line : DelayLine length) : line.pulse.head = next line.head :=
  rfl

theorem tape_pulse (line : DelayLine length) :
    line.pulse.tape =
      line.tape.set line.head (injected line.front line.pending line.refresh) :=
  rfl

/-- After a pulse every cell but the last is one nearer to the head. -/
theorem peek_pulse (line : DelayLine length) {distance : Nat} (inside : distance + 1 < length) :
    line.pulse.peek distance = line.peek (distance + 1) := by
  simp only [peek, tape_pulse, head_pulse, val_next]
  have apart : line.head.val ≠ ((line.head.val + 1) % length + distance) % length := by
    have bounded := line.head.isLt
    rw [Nat.mod_add_mod]
    intro same
    by_cases wrap : line.head.val + 1 + distance < length
    · rw [Nat.mod_eq_of_lt wrap] at same
      omega
    · rw [Nat.mod_eq_sub_mod (by omega), Nat.mod_eq_of_lt (by omega)] at same
      omega
  rw [Vector.getElem_set_ne _ _ apart]
  congr 1
  rw [Nat.mod_add_mod]
  congr 1
  omega

/-- After a pulse the last cell is the injected bit. -/
@[simp]
theorem back_pulse (line : DelayLine length) :
    line.pulse.back = injected line.front line.pending line.refresh := by
  simp only [back, peek, tape_pulse, head_pulse, val_next]
  have bounded := line.head.isLt
  have same : ((line.head.val + 1) % length + (length - 1)) % length = line.head.val := by
    rw [Nat.mod_add_mod, show line.head.val + 1 + (length - 1) = line.head.val + length by omega,
      Nat.add_mod_right, Nat.mod_eq_of_lt bounded]
  simp [same]

end DelayLine

end BitSerial
