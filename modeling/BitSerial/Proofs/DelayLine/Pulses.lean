import BitSerial.DelayLine.Copy

/-!
# Runs of pulses

A line is looked at in two ways.  From the head its cells are a queue (`bits`):
a pulse takes the first bit off and puts the injected one behind the last.  From
outside they are a tape (`cell`), of which a pulse changes at most the place
under the head.  Both views are followed through whole runs of pulses, and every
transfer between two lines is reduced to writing what the other one emits.
-/

namespace BitSerial.DelayLine

variable {length : Nat}

/-- A line that pulses alone do not change: nothing waits to be injected, and
refresh puts back what is emitted. -/
structure Settled (line : DelayLine length) : Prop where
  pending : line.pending = none
  refresh : line.refresh = true

/-- The bit at a place of the tape, places going round the line. -/
def cell (line : DelayLine length) (place : Nat) : Bit :=
  have _inside : place % length < length := Nat.mod_lt _ line.head.pos
  line.tape[place % length]

/-- The bits at some places of the tape in a row. -/
def segment (line : DelayLine length) (place count : Nat) : List Bit :=
  (List.range count).map fun offset => line.cell (place + offset)

@[ext]
theorem ext {left right : DelayLine length} (tape : left.tape = right.tape)
    (head : left.head.val = right.head.val) (pending : left.pending = right.pending)
    (refresh : left.refresh = right.refresh) : left = right := by
  rcases left with ⟨leftTape, leftHead, leftPending, leftRefresh⟩
  rcases right with ⟨rightTape, rightHead, rightPending, rightRefresh⟩
  obtain rfl : leftTape = rightTape := tape
  obtain rfl : leftHead = rightHead := Fin.ext head
  obtain rfl : leftPending = rightPending := pending
  obtain rfl : leftRefresh = rightRefresh := refresh
  rfl

theorem peek_eq_cell (line : DelayLine length) (distance : Nat) :
    line.peek distance = line.cell (line.head + distance) :=
  rfl

theorem getElem?_bits (line : DelayLine length) {distance : Nat} (inside : distance < length) :
    line.bits[distance]? = some (line.peek distance) := by
  simp [bits, inside]

theorem bits_eq_segment (line : DelayLine length) :
    line.bits = line.segment line.head length :=
  rfl

@[simp]
theorem length_segment (line : DelayLine length) (place count : Nat) :
    (line.segment place count).length = count := by
  simp [segment]

@[simp]
theorem getElem_segment (line : DelayLine length) (place count offset : Nat)
    (inside : offset < (line.segment place count).length) :
    (line.segment place count)[offset] = line.cell (place + offset) := by
  simp [segment]

/-- A part of a row is a row. -/
theorem take_drop_segment (line : DelayLine length) (place : Nat) {count skipped taken : Nat}
    (inside : skipped + taken ≤ count) :
    ((line.segment place count).drop skipped).take taken =
      line.segment (place + skipped) taken := by
  apply List.ext_getElem
  · rw [List.length_take, List.length_drop, length_segment, length_segment]
    exact Nat.min_eq_left (Nat.le_sub_of_add_le' inside)
  · intro offset _ _
    simp [Nat.add_assoc]

/-- Places count modulo the length of the line. -/
theorem cell_congr (line : DelayLine length) {left right : Nat}
    (same : left % length = right % length) : line.cell left = line.cell right := by
  simp only [cell, same]

/-- A cleared tape is zero everywhere. -/
theorem cell_of_clear {line : DelayLine length}
    (clear : line.tape = Vector.replicate length false) (place : Nat) :
    line.cell place = false := by
  simp [cell, clear]

theorem segment_of_clear {line : DelayLine length}
    (clear : line.tape = Vector.replicate length false)
    (place count : Nat) : line.segment place count = List.replicate count false := by
  simp [segment, cell_of_clear clear, List.map_const']

theorem take_bits (line : DelayLine length) {count : Nat} (short : count ≤ length) :
    line.bits.take count = line.segment line.head count := by
  rw [bits_eq_segment, segment, segment, ← List.map_take, List.take_range, Nat.min_eq_left short]

/-- The bit at the head is the first of the queue. -/
theorem bits_eq_front_cons (line : DelayLine length) :
    line.bits = line.front :: line.bits.tail := by
  have first : line.bits.head? = some line.front := by
    rw [bits, List.head?_map, List.head?_range, if_neg (Nat.ne_of_gt line.head.pos)]
    exact congrArg some line.peek_zero
  obtain ⟨rest, queue⟩ := List.head?_eq_some_iff.mp first
  rw [queue, List.tail_cons]

theorem front_eq_of_bits_eq_cons {line : DelayLine length} {bit : Bit} {rest : List Bit}
    (bits : line.bits = bit :: rest) : line.front = bit := by
  rw [bits_eq_front_cons, List.cons.injEq] at bits
  exact bits.1

/-! ## One pulse -/

/-- A pulse moves the queue up by one. -/
theorem bits_pulse (line : DelayLine length) :
    line.pulse.bits =
      line.bits.tail ++ [injected line.front line.pending line.refresh] := by
  have positive := line.head.pos
  apply List.ext_getElem
  · simp
    omega
  · intro distance inside _
    rw [length_bits] at inside
    simp only [bits, List.getElem_map, List.getElem_range]
    by_cases last : distance + 1 < length
    · rw [peek_pulse line last, List.getElem_append_left (by simp; omega)]
      simp
    · obtain rfl : distance = length - 1 := by omega
      rw [List.getElem_append_right (by simp), List.getElem_singleton]
      exact line.back_pulse

/-- A pulse changes only the place under the head. -/
theorem cell_pulse (line : DelayLine length) (place : Nat) :
    line.pulse.cell place =
      if place % length = line.head then injected line.front line.pending line.refresh
      else line.cell place := by
  simp only [cell, tape_pulse, Vector.getElem_set]
  by_cases under : line.head.val = place % length
  · rw [if_pos under, if_pos under.symm]
  · rw [if_neg under, if_neg fun same => under same.symm]

/-- A settled line injects what it emits. -/
theorem injected_of_settled {line : DelayLine length} (settled : line.Settled) :
    injected line.front line.pending line.refresh = line.front := by
  rw [settled.pending, settled.refresh]
  rfl

theorem pulse_eq_write {line : DelayLine length} (settled : line.Settled) :
    line.pulse = line.write line.front := by
  apply ext
  · rw [write, tape_pulse, tape_pulse, injected_of_settled settled]
    rfl
  · rfl
  · rfl
  · rfl

/-- Pulses of a settled line turn it and do nothing else. -/
theorem pulse_of_settled {line : DelayLine length} (settled : line.Settled) :
    line.pulse = { line with head := next line.head } := by
  apply ext
  · rw [tape_pulse, injected_of_settled settled]
    exact Vector.set_getElem_self _
  · rfl
  · exact settled.pending.symm
  · rfl

/-- What is next in the queue does not depend on what is injected. -/
theorem take_bits_succ (line : DelayLine length) (count : Nat) :
    line.bits.take (count + 1) = line.front :: line.bits.tail.take count := by
  rw [line.bits_eq_front_cons]
  rfl

theorem take_bits_pulse (line : DelayLine length) {count : Nat} (short : count + 1 ≤ length) :
    line.pulse.bits.take count = line.bits.tail.take count := by
  rw [bits_pulse, List.take_append_of_le_length (by simp; omega)]

theorem take_bits_write (bit : Bit) (line : DelayLine length) {count : Nat}
    (short : count + 1 ≤ length) :
    (line.write bit).bits.take count = line.bits.tail.take count :=
  (line.schedule bit).take_bits_pulse short

/-- Without refresh an idle pulse writes a zero. -/
theorem pulse_of_not_refresh {line : DelayLine length} (pending : line.pending = none)
    (refresh : line.refresh = false) : line.pulse = line.write false := by
  rcases line with ⟨tape, head, pending', refresh'⟩
  obtain rfl : pending' = none := pending
  obtain rfl : refresh' = false := refresh
  rfl

@[simp]
theorem bits_write (bit : Bit) (line : DelayLine length) :
    (line.write bit).bits = line.bits.tail ++ [bit] :=
  bits_pulse (line.schedule bit)

theorem cell_write (bit : Bit) (line : DelayLine length) (place : Nat) :
    (line.write bit).cell place =
      if place % length = line.head then bit else line.cell place :=
  cell_pulse (line.schedule bit) place

@[simp]
theorem head_write (bit : Bit) (line : DelayLine length) :
    (line.write bit).head = next line.head :=
  rfl

@[simp]
theorem pending_write (bit : Bit) (line : DelayLine length) : (line.write bit).pending = none :=
  rfl

@[simp]
theorem refresh_write (bit : Bit) (line : DelayLine length) :
    (line.write bit).refresh = line.refresh :=
  rfl

/-! ## Many pulses -/

theorem advance_add (first second : Nat) (line : DelayLine length) :
    line.advance (first + second) = (line.advance first).advance second := by
  induction first generalizing line with
  | zero => rw [Nat.zero_add, advance]
  | succ first ih => rw [Nat.succ_add, advance, advance, ih]

/-- The last pulse of a run may be taken apart instead of the first. -/
theorem advance_succ (count : Nat) (line : DelayLine length) :
    line.advance (count + 1) = (line.advance count).pulse := by
  rw [advance_add]
  rfl

/-- Pulses of a settled line move its head and nothing else. -/
theorem advance_of_settled {line : DelayLine length} (settled : line.Settled) (count : Nat) :
    line.advance count =
      { line with head := ⟨(line.head + count) % length, Nat.mod_lt _ line.head.pos⟩ } := by
  induction count generalizing line with
  | zero =>
      apply ext
      · rfl
      · exact (Nat.mod_eq_of_lt line.head.isLt).symm
      · rfl
      · rfl
  | succ count ih =>
      have pulsed := pulse_of_settled settled
      have settledPulsed : line.pulse.Settled := ⟨rfl, settled.refresh⟩
      rw [advance, ih settledPulsed]
      apply ext
      · show line.pulse.tape = line.tape
        rw [pulsed]
      · show (line.pulse.head + count) % length = _
        rw [head_pulse, val_next, Nat.mod_add_mod, Nat.add_assoc, Nat.add_comm 1]
      · exact settled.pending.symm
      · rfl

@[simp]
theorem head_advance (count : Nat) (line : DelayLine length) :
    (line.advance count).head.val = (line.head + count) % length := by
  induction count generalizing line with
  | zero => exact (Nat.mod_eq_of_lt line.head.isLt).symm
  | succ count ih =>
      rw [advance, ih, head_pulse, val_next, Nat.mod_add_mod, Nat.add_assoc, Nat.add_comm 1]

/-- A settled line is itself again after one revolution. -/
theorem advance_length {line : DelayLine length} (settled : line.Settled) :
    line.advance length = line := by
  rw [advance_of_settled settled]
  apply ext
  · rfl
  · show (line.head + length) % length = line.head
    rw [Nat.add_mod_right, Nat.mod_eq_of_lt line.head.isLt]
  · rfl
  · rfl

theorem Settled.advance {line : DelayLine length} (settled : line.Settled) (count : Nat) :
    (line.advance count).Settled := by
  rw [advance_of_settled settled]
  exact ⟨settled.pending, settled.refresh⟩

theorem cell_advance {line : DelayLine length} (settled : line.Settled) (count place : Nat) :
    (line.advance count).cell place = line.cell place := by
  rw [advance_of_settled settled]
  rfl

theorem segment_advance {line : DelayLine length} (settled : line.Settled)
    (count place taken : Nat) :
    (line.advance count).segment place taken = line.segment place taken := by
  apply List.map_congr_left
  intro offset _
  exact cell_advance settled count (place + offset)

@[simp]
theorem refresh_writeAll (bits : List Bit) (line : DelayLine length) :
    (line.writeAll bits).refresh = line.refresh := by
  induction bits generalizing line with
  | nil => rfl
  | cons bit rest ih => rw [writeAll, ih, refresh_write]

@[simp]
theorem head_writeAll (bits : List Bit) (line : DelayLine length) :
    (line.writeAll bits).head.val = (line.head + bits.length) % length := by
  induction bits generalizing line with
  | nil => exact (Nat.mod_eq_of_lt line.head.isLt).symm
  | cons bit rest ih =>
      rw [writeAll, ih, head_write, val_next, Nat.mod_add_mod, List.length_cons, Nat.add_assoc,
        Nat.add_comm 1]

/-- Writing leaves nothing pending, whatever was. -/
theorem pending_writeAll {bits : List Bit} (nonempty : bits ≠ []) (line : DelayLine length) :
    (line.writeAll bits).pending = none := by
  induction bits generalizing line with
  | nil => exact absurd rfl nonempty
  | cons bit rest ih =>
      cases rest with
      | nil => exact pending_write bit line
      | cons second rest => exact ih (List.cons_ne_nil second rest) (line.write bit)

theorem Settled.writeAll {line : DelayLine length} (settled : line.Settled) (bits : List Bit) :
    (line.writeAll bits).Settled := by
  cases bits with
  | nil => exact settled
  | cons bit rest =>
      exact ⟨pending_writeAll (List.cons_ne_nil bit rest) line,
        (refresh_writeAll (bit :: rest) line).trans settled.refresh⟩

/-- Written bits stand last in the queue. -/
theorem bits_writeAll {bits : List Bit} (line : DelayLine length) (short : bits.length ≤ length) :
    (line.writeAll bits).bits = line.bits.drop bits.length ++ bits := by
  induction bits generalizing line with
  | nil => simp [writeAll]
  | cons bit rest ih =>
      rw [List.length_cons] at short
      rw [writeAll, ih _ (Nat.le_of_succ_le short), bits_write,
        List.drop_append_of_le_length (by simp; omega), List.drop_tail, List.append_assoc]
      rfl

/-- Writing a whole revolution leaves nothing of what was there. -/
theorem bits_writeAll_length {bits : List Bit} (line : DelayLine length)
    (full : bits.length = length) : (line.writeAll bits).bits = bits := by
  rw [bits_writeAll line (Nat.le_of_eq full), full,
    List.drop_eq_nil_of_le (Nat.le_of_eq line.length_bits), List.nil_append]

theorem writeAll_append (first second : List Bit) (line : DelayLine length) :
    line.writeAll (first ++ second) = (line.writeAll first).writeAll second := by
  induction first generalizing line with
  | nil => rfl
  | cons bit rest ih => exact ih (line.write bit)

/-- Writing and switching refresh do not disturb each other. -/
theorem writeAll_setRefresh (bits : List Bit) (line : DelayLine length) (refresh : Bool) :
    (line.setRefresh refresh).writeAll bits = (line.writeAll bits).setRefresh refresh := by
  induction bits generalizing line with
  | nil => rfl
  | cons bit rest ih => exact ih (line.write bit)

theorem setRefresh_of_refresh {line : DelayLine length} {refresh : Bool}
    (same : line.refresh = refresh) : line.setRefresh refresh = line := by
  subst same
  rfl

/-- Without refresh, idle pulses write zeros. -/
theorem advance_of_not_refresh {line : DelayLine length} (pending : line.pending = none)
    (refresh : line.refresh = false) (count : Nat) :
    line.advance count = line.writeAll (List.replicate count false) := by
  induction count generalizing line with
  | zero => rfl
  | succ count ih =>
      have rest : line.pulse.advance count = line.pulse.writeAll (List.replicate count false) :=
        ih rfl refresh
      rw [advance, rest, pulse_of_not_refresh pending refresh]
      rfl

/-- Places that a write does not pass over keep their bits. -/
theorem cell_writeAll_of_outside {bits : List Bit} (line : DelayLine length) {place : Nat}
    (outside : ∀ offset < bits.length, place % length ≠ (line.head + offset) % length) :
    (line.writeAll bits).cell place = line.cell place := by
  induction bits generalizing line with
  | nil => rfl
  | cons bit rest ih =>
      have atHead := outside 0 (Nat.succ_pos _)
      rw [Nat.add_zero, Nat.mod_eq_of_lt line.head.isLt] at atHead
      rw [writeAll, ih, cell_write, if_neg atHead]
      intro offset inside
      rw [head_write, val_next, Nat.mod_add_mod, Nat.add_assoc, Nat.add_comm 1]
      exact outside (offset + 1) (Nat.succ_lt_succ inside)

/-- The bits of one write stand on the tape in a row. -/
theorem segment_writeAll {bits : List Bit} (line : DelayLine length)
    (short : bits.length ≤ length) :
    (line.writeAll bits).segment line.head bits.length = bits := by
  have behind : (line.writeAll bits).bits.drop (length - bits.length) = bits := by
    rw [bits_writeAll line short, List.drop_append_of_le_length (by simp), List.drop_drop,
      Nat.add_sub_cancel' short, List.drop_eq_nil_of_le (Nat.le_of_eq line.length_bits),
      List.nil_append]
  apply List.ext_getElem
  · simp
  · intro offset inside _
    rw [length_segment] at inside
    have found : bits[offset] = (line.writeAll bits).peek (length - bits.length + offset) := by
      rw [List.getElem_of_eq behind.symm inside]
      simp [DelayLine.bits]
    rw [found, getElem_segment, peek_eq_cell, head_writeAll]
    apply cell_congr
    rw [Nat.mod_add_mod]
    rw [show line.head.val + bits.length + (length - bits.length + offset) =
      line.head + offset + length by omega, Nat.add_mod_right]

/-- Within a revolution the pulses of a settled line put the first bits of the
queue behind the others. -/
theorem bits_advance {line : DelayLine length} (settled : line.Settled) {count : Nat}
    (short : count ≤ length) :
    (line.advance count).bits = line.bits.drop count ++ line.bits.take count := by
  have same : line.advance count = line.writeAll (line.bits.take count) := by
    induction count generalizing line with
    | zero => simp [advance, writeAll]
    | succ count ih =>
        have settledPulsed : line.pulse.Settled := ⟨rfl, settled.refresh⟩
        rw [advance, ih settledPulsed (Nat.le_of_succ_le short), take_bits_pulse _ short,
          take_bits_succ, pulse_eq_write settled]
        rfl
  have fits : (line.bits.take count).length ≤ length := by
    rw [List.length_take, line.length_bits]
    exact Nat.min_le_right count length
  rw [same, bits_writeAll _ fits, List.length_take, line.length_bits, Nat.min_eq_left short]

/-! ## Listening and copying -/

theorem emitAfter_eq (count : Nat) (emitted : List Bit) (line : DelayLine length)
    (short : count ≤ length) :
    emitAfter count emitted line =
      (emitted.reverse ++ line.bits.take count, line.advance count) := by
  induction count generalizing emitted line with
  | zero => simp [emitAfter, advance]
  | succ count ih =>
      rw [emitAfter, ih _ _ (Nat.le_of_succ_le short), take_bits_pulse _ short, take_bits_succ,
        List.reverse_cons, List.append_assoc]
      rfl

/-- Within a revolution a line emits its bits in their order, whatever it
injects. -/
theorem emit_eq (line : DelayLine length) {count : Nat} (short : count ≤ length) :
    line.emit count = (line.bits.take count, line.advance count) := by
  rw [emit, emitAfter_eq count [] line short]
  rfl

variable {sourceLength : Nat}

/-- Copying writes what the source emits. -/
theorem copy_eq (target : DelayLine length) (source : DelayLine sourceLength) {count : Nat}
    (short : count ≤ sourceLength) :
    copy count target source =
      (source.advance count, target.writeAll (source.bits.take count)) := by
  induction count generalizing target source with
  | zero => simp [copy, advance, writeAll]
  | succ count ih =>
      rw [copy, ih _ _ (Nat.le_of_succ_le short), take_bits_pulse _ short, take_bits_succ]
      rfl

/-- Moving writes what the source emits, and zeros into the source. -/
theorem move_eq (target : DelayLine length) (source : DelayLine sourceLength) {count : Nat}
    (short : count ≤ sourceLength) :
    move count target source =
      (source.writeAll (List.replicate count false),
        target.writeAll (source.bits.take count)) := by
  induction count generalizing target source with
  | zero => simp [move, writeAll]
  | succ count ih =>
      rw [move, ih _ _ (Nat.le_of_succ_le short), take_bits_write _ _ short, take_bits_succ]
      rfl

end BitSerial.DelayLine
