import BitSerial.Proofs.DelayLine.Pulses
import BitSerial.Rotation

/-!
# Whole revolutions

A line is its queue, the place of its head, its pending bit and its switch.  So when a
whole revolution is written, nothing of the line is left but the place and the switch: the
second of two such writes is the one that counts, and writing what a line at rest shows
anyway changes nothing.
-/

namespace BitSerial.DelayLine

variable {length : Nat}

/-- Every place of the tape is some way behind the head. -/
theorem cell_eq_peek (line : DelayLine length) (place : Nat) :
    line.cell place = line.peek (Rotation.waitWords line.head place length) := by
  rw [peek_eq_cell]
  apply cell_congr
  exact (Rotation.add_waitWords_mod line.head.pos line.head place).symm

/-- Lines are equal if they show the same queue from the same place. -/
theorem eq_of_bits {left right : DelayLine length} (bits : left.bits = right.bits)
    (head : left.head = right.head) (pending : left.pending = right.pending)
    (refresh : left.refresh = right.refresh) : left = right := by
  have cells (place : Nat) : left.cell place = right.cell place := by
    have near := Rotation.waitWords_lt left.head.pos left.head place
    have bit := congrArg
      (fun queue => queue[Rotation.waitWords left.head place length]?) bits
    rw [cell_eq_peek left, cell_eq_peek right, ← head]
    simpa [DelayLine.bits, near] using bit
  refine ext ?_ (congrArg Fin.val head) pending refresh
  apply Vector.ext
  intro place inside
  have bit := cells place
  simpa only [cell, Nat.mod_eq_of_lt inside] using bit

theorem writeAll_cons (bit : Bit) (rest : List Bit) (line : DelayLine length) :
    line.writeAll (bit :: rest) = (line.write bit).writeAll rest :=
  rfl

theorem ne_nil_of_length {bits : List Bit} (line : DelayLine length)
    (full : bits.length = length) : bits ≠ [] :=
  List.ne_nil_of_length_pos (full ▸ line.head.pos)

/-- A revolution of writes brings the head back. -/
theorem head_writeAll_length {bits : List Bit} (line : DelayLine length)
    (full : bits.length = length) : (line.writeAll bits).head = line.head := by
  apply Fin.ext
  rw [head_writeAll, full, Nat.add_mod_right, Nat.mod_eq_of_lt line.head.isLt]

/-- Of two writes of a whole revolution only the second counts. -/
theorem writeAll_writeAll {first second : List Bit} (line : DelayLine length)
    (firstFull : first.length = length) (secondFull : second.length = length) :
    (line.writeAll first).writeAll second = line.writeAll second := by
  apply eq_of_bits
  · rw [bits_writeAll_length _ secondFull, bits_writeAll_length _ secondFull]
  · rw [head_writeAll_length _ secondFull, head_writeAll_length _ secondFull,
      head_writeAll_length _ firstFull]
  · rw [pending_writeAll (line.ne_nil_of_length secondFull),
      pending_writeAll (line.ne_nil_of_length secondFull)]
  · rw [refresh_writeAll, refresh_writeAll, refresh_writeAll]

/-- A line at rest may be written over with what it shows. -/
theorem writeAll_bits {line : DelayLine length} (settled : line.Settled) :
    line.writeAll line.bits = line := by
  apply eq_of_bits
  · exact bits_writeAll_length _ line.length_bits
  · exact head_writeAll_length _ line.length_bits
  · rw [pending_writeAll (line.ne_nil_of_length line.length_bits), settled.pending]
  · exact refresh_writeAll _ _

/-- Neither a pending bit nor the switch shows in what is written. -/
theorem writeAll_of_flags {bits : List Bit} (nonempty : bits ≠ []) (line : DelayLine length)
    (pending : Option Bit) (refresh : Bool) :
    ({ line with pending, refresh } : DelayLine length).writeAll bits =
      (line.writeAll bits).setRefresh refresh := by
  cases bits with
  | nil => exact absurd rfl nonempty
  | cons bit rest => exact writeAll_setRefresh rest (line.write bit) refresh

end BitSerial.DelayLine
