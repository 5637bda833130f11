import BitSerial.Proofs.DelayLine.Pulses
import Mathlib.Data.List.Basic
import Mathlib.Data.List.Induction

/-!
# Inscriptions

A revolution of pulses passes every cell once.  A plan says which bits are scheduled before
each of its pulses, if any: what a pulse leaves in the cell is the last of them, else what
refresh puts back.
-/

namespace BitSerial.DelayLine

variable {length : Nat}

/-- Schedule bits one after the other. -/
def scheduleAll (bits : List Bit) (line : DelayLine length) : DelayLine length :=
  bits.foldl (fun line bit => line.schedule bit) line

/-- Pulse once for each list of a plan, with the bits of the list scheduled before. -/
def inscribe : List (List Bit) → DelayLine length → DelayLine length
  | [], line => line
  | bits :: rest, line => inscribe rest (line.scheduleAll bits).pulse

/-- What a pulse leaves of an emitted bit, with some bits scheduled before. -/
def leaves (refresh : Bool) (bits : List Bit) (emitted : Bit) : Bit :=
  bits.getLast?.getD (refresh && emitted)

/-- Of the bits scheduled before a pulse the last one counts. -/
theorem scheduleAll_eq (bits : List Bit) (line : DelayLine length) :
    line.scheduleAll bits = { line with pending := bits.getLast?.or line.pending } := by
  induction bits using List.reverseRecOn with
  | nil => rfl
  | append_singleton bits bit ih =>
      rw [scheduleAll, List.foldl_concat, ← scheduleAll, ih, List.getLast?_concat]
      rfl

/-- A bit that is pending anyway is one scheduled before all others. -/
theorem inscribe_pending (line : DelayLine length) (bits : List Bit) (rest : List (List Bit)) :
    line.inscribe (bits :: rest) =
      ({ line with pending := none } : DelayLine length).inscribe
        ((line.pending.toList ++ bits) :: rest) := by
  have scheduled : line.scheduleAll bits =
      ({ line with pending := none } : DelayLine length).scheduleAll
        (line.pending.toList ++ bits) := by
    rw [scheduleAll_eq, scheduleAll_eq, List.getLast?_append, Option.or_none]
    cases line.pending <;> rfl
  rw [inscribe, inscribe, scheduled]

/-- Writing is a plan of one bit to a pulse. -/
theorem inscribe_singletons (bits : List Bit) :
    (inscribe (bits.map fun bit => [bit]) : DelayLine length → DelayLine length) =
      writeAll bits := by
  funext line
  induction bits generalizing line with
  | nil => rfl
  | cons bit rest ih => exact ih (line.write bit)

theorem refresh_inscribe (plan : List (List Bit)) (line : DelayLine length) :
    (line.inscribe plan).refresh = line.refresh := by
  induction plan generalizing line with
  | nil => rfl
  | cons bits rest ih => rw [inscribe, ih, refresh_pulse, scheduleAll_eq]

theorem pending_inscribe (bits : List Bit) (rest : List (List Bit)) (line : DelayLine length) :
    (line.inscribe (bits :: rest)).pending = none := by
  induction rest generalizing bits line with
  | nil => rfl
  | cons next rest ih => exact ih next (line.scheduleAll bits).pulse

@[simp]
theorem head_inscribe (plan : List (List Bit)) (line : DelayLine length) :
    (line.inscribe plan).head.val = (line.head + plan.length) % length := by
  induction plan generalizing line with
  | nil => exact (Nat.mod_eq_of_lt line.head.isLt).symm
  | cons bits rest ih =>
      rw [inscribe, ih, head_pulse, val_next, scheduleAll_eq, Nat.mod_add_mod, List.length_cons,
        Nat.add_assoc, Nat.add_comm 1]

/-- A plan for at most a revolution takes the first cells of the queue and puts behind the
others what its pulses leave of them. -/
theorem bits_inscribe {line : DelayLine length} (idle : line.pending = none)
    {plan : List (List Bit)} (short : plan.length ≤ length) :
    (line.inscribe plan).bits =
      line.bits.drop plan.length ++
        List.zipWith (leaves line.refresh) plan (line.bits.take plan.length) := by
  induction plan generalizing line with
  | nil => simp [inscribe]
  | cons bits rest ih =>
      rw [List.length_cons] at short
      have inside : rest.length ≤ line.bits.tail.length := by
        rw [List.length_tail, line.length_bits]
        omega
      have cells : (line.scheduleAll bits).pulse.bits =
          line.bits.tail ++ [leaves line.refresh bits line.front] := by
        rw [scheduleAll_eq, bits_pulse, idle, Option.or_none]
        rfl
      have later : ((line.scheduleAll bits).pulse.inscribe rest).bits =
          (line.scheduleAll bits).pulse.bits.drop rest.length ++
            List.zipWith (leaves line.refresh) rest
              ((line.scheduleAll bits).pulse.bits.take rest.length) := by
        rw [ih (pending_pulse _) (Nat.le_of_succ_le short), refresh_pulse, scheduleAll_eq]
      rw [inscribe, later, cells, List.drop_append_of_le_length inside,
        List.take_append_of_le_length inside, List.length_cons, take_bits_succ,
        List.zipWith_cons_cons, List.drop_tail, List.append_assoc, List.singleton_append]

/-- After a revolution each cell is what the pulse over it left. -/
theorem getElem?_bits_inscribe {line : DelayLine length} (idle : line.pending = none)
    {plan : List (List Bit)} (full : plan.length = length) {distance : Nat}
    (inside : distance < length) :
    (line.inscribe plan).bits[distance]? =
      some (leaves line.refresh (plan.getD distance []) (line.peek distance)) := by
  have all : line.bits.take length = line.bits :=
    List.take_of_length_le (Nat.le_of_eq line.length_bits)
  have none : line.bits.drop length = [] := List.drop_eq_nil_of_le (Nat.le_of_eq line.length_bits)
  rw [bits_inscribe idle (Nat.le_of_eq full), full, all, none, List.nil_append]
  simp [full, inside, bits]

end BitSerial.DelayLine
