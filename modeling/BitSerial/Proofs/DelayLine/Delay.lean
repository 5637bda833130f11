import BitSerial.Proofs.DelayLine.Pulses
import Mathlib.Data.List.Rotate

/-!
# Lines as delays

A line is asked to pulse, to schedule a bit and to switch refresh, in any order and as often
as anyone likes.  Whatever is asked, what has left the line with what is still in it is what
was in it with what has entered it.  So each bit leaves as many pulses after it entered as
the line has cells, and all that is left to say is which bit enters with a pulse.
-/

namespace BitSerial.DelayLine

variable {length : Nat}

/-! ## Requests -/

/-- Something asked of a line. -/
inductive Request
  | pulse
  | schedule (bit : Bit)
  /-- Schedule a raw value, which may be refused. -/
  | scheduleValue (value : Nat)
  | setRefresh (refresh : Bool)
  deriving DecidableEq

namespace Request

/-- The bit that a request makes the next one injected. -/
def accepted? : Request → Option Bit
  | .schedule bit => some bit
  | .scheduleValue 0 => some false
  | .scheduleValue 1 => some true
  | _ => none

/-- Where a request puts the switch. -/
def switched? : Request → Option Bool
  | .setRefresh refresh => some refresh
  | _ => none

/-- The bit accepted last since the last pulse. -/
def lastAccepted? (history : List Request) : Option Bit :=
  (history.reverse.takeWhile (· ≠ .pulse)).findSome? accepted?

/-- Where the switch was put last. -/
def lastSwitched? (history : List Request) : Option Bool :=
  history.reverse.findSome? switched?

/-- Requests that schedule nothing and do not switch refresh off. -/
def Quiet (history : List Request) : Prop :=
  ∀ request ∈ history, request.accepted? = none ∧ request ≠ .setRefresh false

theorem lastAccepted?_concat (history : List Request) (request : Request) :
    lastAccepted? (history ++ [request]) =
      if request = .pulse then none else request.accepted?.or (lastAccepted? history) := by
  simp only [lastAccepted?, List.reverse_concat, List.takeWhile_cons, decide_eq_true_eq,
    ite_not]
  split
  · rfl
  · rw [List.findSome?_cons]
    cases request.accepted? <;> rfl

theorem lastSwitched?_concat (history : List Request) (request : Request) :
    lastSwitched? (history ++ [request]) = request.switched?.or (lastSwitched? history) := by
  rw [lastSwitched?, List.reverse_concat, List.findSome?_cons]
  cases request.switched? <;> rfl

end Request

/-- The line after a request, whether it was granted or refused. -/
def handle (line : DelayLine length) : Request → DelayLine length
  | .pulse => line.pulse
  | .schedule bit => line.schedule bit
  | .scheduleValue value =>
      match line.scheduleValue value with
      | .ok after => after
      | .error _ => line
  | .setRefresh refresh => line.setRefresh refresh

/-- The line after some requests. -/
def handleAll (line : DelayLine length) (history : List Request) : DelayLine length :=
  history.foldl handle line

/-- What is seen of a line whenever it is about to pulse. -/
def atPulses (see : DelayLine length → Bit) (line : DelayLine length) : List Request → List Bit
  | [] => []
  | request :: rest =>
      let later := (line.handle request).atPulses see rest
      if request = .pulse then see line :: later else later

/-- The bits that pulses emit. -/
def emissions (line : DelayLine length) (history : List Request) : List Bit :=
  line.atPulses front history

/-- The bits that pulses leave in the last cell. -/
def injections (line : DelayLine length) (history : List Request) : List Bit :=
  line.atPulses (fun before => before.pulse.back) history

variable (line : DelayLine length)

@[simp]
theorem handleAll_nil : line.handleAll [] = line :=
  rfl

@[simp]
theorem handleAll_cons (request : Request) (rest : List Request) :
    line.handleAll (request :: rest) = (line.handle request).handleAll rest :=
  rfl

theorem handleAll_concat (history : List Request) (request : Request) :
    line.handleAll (history ++ [request]) = (line.handleAll history).handle request :=
  List.foldl_concat ..

/-- Raw values above one are refused and change nothing. -/
theorem scheduleValue_of_one_lt {value : Nat} (large : 1 < value) :
    line.scheduleValue value = .error ⟨value⟩ ∧ line.handle (.scheduleValue value) = line := by
  match value, large with
  | value + 2, _ => exact ⟨rfl, rfl⟩

/-- What a request other than a pulse does: it may replace the pending bit and it may move the
switch. -/
theorem handle_of_ne {request : Request} (still : request ≠ .pulse) :
    line.handle request = { line with
      pending := request.accepted?.or line.pending
      refresh := request.switched?.getD line.refresh } := by
  cases request with
  | pulse => exact absurd rfl still
  | schedule bit => rfl
  | scheduleValue value =>
      match value with
      | 0 => rfl
      | 1 => rfl
      | value + 2 => rfl
  | setRefresh refresh => rfl

theorem bits_handle_of_ne {request : Request} (still : request ≠ .pulse) :
    (line.handle request).bits = line.bits := by
  rw [handle_of_ne line still]
  rfl

/-! ## What requests leave behind -/

variable {line}

/-- What is pending is the bit accepted last since the last pulse. -/
theorem pending_handleAll (idle : line.pending = none) (history : List Request) :
    (line.handleAll history).pending = Request.lastAccepted? history := by
  induction history using List.reverseRecOn with
  | nil => exact idle
  | append_singleton history request ih =>
      rw [handleAll_concat, Request.lastAccepted?_concat]
      split
      · rename_i isPulse
        rw [isPulse]
        rfl
      · rename_i still
        rw [handle_of_ne _ still, ih]

theorem refresh_handleAll (history : List Request) :
    (line.handleAll history).refresh =
      (Request.lastSwitched? history).getD line.refresh := by
  induction history using List.reverseRecOn with
  | nil => rfl
  | append_singleton history request ih =>
      rw [handleAll_concat, Request.lastSwitched?_concat]
      by_cases isPulse : request = .pulse
      · rw [isPulse]
        exact ih
      · rw [handle_of_ne _ isPulse, ih]
        cases request.switched? <;> rfl

/-! ## What is seen at the pulses -/

variable (see : DelayLine length → Bit)

theorem length_atPulses (history : List Request) :
    (line.atPulses see history).length = history.count .pulse := by
  induction history generalizing line with
  | nil => rfl
  | cons request rest ih =>
      rw [atPulses, List.count_cons]
      split
      · rename_i isPulse
        simp [ih, isPulse]
      · rename_i still
        simp [ih, still]

/-- Behind some requests comes what is seen of the line that they leave. -/
theorem atPulses_append (past future : List Request) :
    line.atPulses see (past ++ future) =
      line.atPulses see past ++ (line.handleAll past).atPulses see future := by
  induction past generalizing line with
  | nil => rfl
  | cons request rest ih =>
      rw [List.cons_append, atPulses, atPulses, ih, handleAll_cons]
      split
      · rfl
      · rfl

/-- A pulse is seen behind all pulses before it. -/
theorem getElem?_atPulses (past rest : List Request) :
    (line.atPulses see (past ++ .pulse :: rest))[past.count .pulse]? =
      some (see (line.handleAll past)) := by
  have behind : (line.atPulses see past).length = past.count .pulse := length_atPulses see past
  rw [atPulses_append, ← behind, List.getElem?_append_right (Nat.le_refl _), Nat.sub_self]
  rfl

/-! ## The delay -/

/-- What has left the line with what is in it is what was in it with what has entered. -/
theorem emissions_append_bits (history : List Request) :
    line.emissions history ++ (line.handleAll history).bits =
      line.bits ++ line.injections history := by
  rw [emissions, injections]
  induction history generalizing line with
  | nil => rw [atPulses, atPulses, handleAll_nil, List.append_nil, List.nil_append]
  | cons request rest ih =>
      rw [atPulses, atPulses, handleAll_cons]
      split
      · rename_i isPulse
        have later := @ih (line.handle request)
        rw [isPulse] at later ⊢
        -- the pulse takes the first bit off the queue and puts the injected one behind it
        rw [List.cons_append, later, handle, bits_pulse, ← back_pulse, List.append_assoc,
          List.singleton_append, ← List.cons_append, ← bits_eq_front_cons]
      · rename_i still
        rw [ih, bits_handle_of_ne line still]

theorem length_emissions (history : List Request) :
    (line.emissions history).length = history.count .pulse :=
  length_atPulses front history

theorem length_injections (history : List Request) :
    (line.injections history).length = history.count .pulse :=
  length_atPulses _ history

/-- A bit leaves as many pulses after it entered as there are cells, and before any of those
leaves what was there. -/
theorem getElem?_emissions {history : List Request} {place : Nat}
    (pulsed : place < history.count .pulse) :
    (line.emissions history)[place]? =
      if place < length then line.bits[place]? else (line.injections history)[place - length]? := by
  have inside : place < (line.emissions history).length := by rwa [length_emissions]
  rw [← List.getElem?_append_left inside, emissions_append_bits, List.getElem?_append,
    length_bits]

/-- Cells are emitted in their order, whatever is asked meanwhile. -/
theorem getElem?_emissions_eq_peek {future : List Request} {distance : Nat}
    (inside : distance < length) (pulsed : distance < future.count .pulse) :
    (line.emissions future)[distance]? = some (line.peek distance) := by
  rw [getElem?_emissions pulsed, if_pos inside, getElem?_bits line inside]

/-- A pulse injects the bit accepted last since the pulse before it, else what it emits if
refresh is on, else nothing. -/
theorem back_pulse_handleAll (idle : line.pending = none) (past : List Request) :
    (line.handleAll past).pulse.back =
      match Request.lastAccepted? past with
      | some bit => bit
      | none =>
          if (Request.lastSwitched? past).getD line.refresh then (line.handleAll past).front
          else false := by
  rw [back_pulse, pending_handleAll idle, refresh_handleAll]
  cases Request.lastAccepted? past with
  | some bit => rfl
  | none => cases (Request.lastSwitched? past).getD line.refresh <;> rfl

/-! ## Lines left to themselves -/

theorem Settled.handle (settled : line.Settled) {request : Request}
    (silent : request.accepted? = none) (kept : request ≠ .setRefresh false) :
    (line.handle request).Settled := by
  cases request with
  | pulse => exact ⟨rfl, settled.refresh⟩
  | schedule bit => cases silent
  | scheduleValue value =>
      match value, silent with
      | value + 2, _ => exact settled
  | setRefresh refresh =>
      cases refresh with
      | false => exact absurd rfl kept
      | true => exact ⟨settled.pending, rfl⟩

/-- A pulse of a settled line turns its content by a cell. -/
theorem Settled.bits_pulse (settled : line.Settled) : line.pulse.bits = line.bits.rotate 1 := by
  rw [DelayLine.bits_pulse, injected_of_settled settled]
  conv_rhs => rw [line.bits_eq_front_cons]
  rw [List.rotate_cons_succ, List.rotate_zero]

/-- A settled line that nothing is scheduled on only turns its content. -/
theorem Settled.bits_handleAll (settled : line.Settled) {history : List Request}
    (quiet : Request.Quiet history) :
    (line.handleAll history).bits = line.bits.rotate (history.count .pulse) := by
  induction history generalizing line with
  | nil => exact (List.rotate_zero _).symm
  | cons request rest ih =>
      obtain ⟨⟨silent, kept⟩, later⟩ := List.forall_mem_cons.mp quiet
      rw [handleAll_cons, ih (settled.handle silent kept) later]
      by_cases isPulse : request = .pulse
      · rw [isPulse, DelayLine.handle, settled.bits_pulse, List.rotate_rotate, List.count_cons_self,
          Nat.add_comm]
      · rw [bits_handle_of_ne line isPulse, List.count_cons_of_ne isPulse]

/-- After whole revolutions the content is what it was. -/
theorem Settled.bits_handleAll_of_dvd (settled : line.Settled) {history : List Request}
    (quiet : Request.Quiet history) (whole : length ∣ history.count .pulse) :
    (line.handleAll history).bits = line.bits := by
  obtain ⟨revolutions, counted⟩ := whole
  have revolved := line.bits.rotate_length_mul revolutions
  rwa [line.length_bits, ← counted, ← settled.bits_handleAll quiet] at revolved

/-- A line is a delay of exactly its length.  Whatever was asked of it, it has all its cells,
and what its pulses have emitted is first what it held and then what they injected, as many
pulses later as there are cells.  A pulse emits the bit at the head.  It injects the bit
accepted last since the pulse before it, or the bit it emits if there is none and refresh is
on, and it leaves that bit in the last cell and nothing pending.  Raw values that are no bit
are refused and change nothing.  The cells are emitted in their order, whatever is asked
meanwhile; and if nothing is, they come round with every revolution. -/
theorem delay_exact (bits : Vector Bit length) (positive : 0 < length) (history : List Request) :
    let start := ofBits bits positive
    let line := start.handleAll history
    line.bits.length = length ∧
    (start.emissions history).length = history.count .pulse ∧
    (start.injections history).length = history.count .pulse ∧
    (∀ place < history.count .pulse,
      (start.emissions history)[place]? =
        if place < length then bits[place]? else (start.injections history)[place - length]?) ∧
    (∀ past rest, history = past ++ .pulse :: rest →
      let before := start.handleAll past
      (start.emissions history)[past.count .pulse]? = some before.front ∧
      (start.injections history)[past.count .pulse]? = some before.pulse.back ∧
      (before.pulse.back =
        match Request.lastAccepted? past with
        | some bit => bit
        | none => if (Request.lastSwitched? past).getD true then before.front else false) ∧
      before.pulse.pending = none) ∧
    (∀ value, 1 < value →
      line.scheduleValue value = .error ⟨value⟩ ∧ line.handle (.scheduleValue value) = line) ∧
    (∀ future distance, distance < length → distance < future.count .pulse →
      (line.emissions future)[distance]? = some (line.peek distance)) ∧
    (line.pending = none → line.refresh = true → ∀ future, Request.Quiet future →
      (line.handleAll future).bits = line.bits.rotate (future.count .pulse) ∧
      (length ∣ future.count .pulse → (line.handleAll future).bits = line.bits)) := by
  intro start line
  have content (place : Nat) (inside : place < length) : start.bits[place]? = bits[place]? := by
    rw [getElem?_pos start.bits place (by rwa [length_bits]), getElem?_pos bits place inside]
    simp [start, DelayLine.bits, peek, ofBits, Nat.mod_eq_of_lt inside]
  refine ⟨line.length_bits, length_emissions history, length_injections history, ?_, ?_, ?_, ?_,
    ?_⟩
  · intro place pulsed
    rw [getElem?_emissions pulsed]
    split
    · rename_i inside
      exact content place inside
    · rfl
  · rintro past rest rfl
    refine ⟨getElem?_atPulses front past rest, getElem?_atPulses _ past rest, ?_, rfl⟩
    have idle : start.pending = none := rfl
    exact back_pulse_handleAll idle past
  · intro value large
    exact line.scheduleValue_of_one_lt large
  · intro future distance inside pulsed
    exact getElem?_emissions_eq_peek inside pulsed
  · intro idle on future quiet
    have settled : line.Settled := ⟨idle, on⟩
    exact ⟨settled.bits_handleAll quiet, settled.bits_handleAll_of_dvd quiet⟩

/-- On three cells: a write over another one and a refused one, then refresh off and on again.
The first two bits injected come out behind the three that were there, and what the line holds
in the end comes round. -/
theorem delay_exact_overwritten :
    let start : DelayLine 3 := ofBits #v[true, false, true] (by decide)
    let history : List Request := [.schedule true, .scheduleValue 0, .scheduleValue 2, .pulse,
      .setRefresh false, .pulse, .pulse, .schedule true, .pulse, .setRefresh true, .pulse]
    start.emissions history = [true, false, true, false, false] ∧
      start.injections history = [false, false, false, true, false] ∧
      (start.emissions history)[4]? = (start.injections history)[1]? ∧
      ((start.handleAll history).handleAll [.pulse, .scheduleValue 7, .pulse, .pulse]).bits =
        (start.handleAll history).bits := by
  intro start history
  obtain ⟨-, -, -, delayed, -, -, -, turns⟩ :=
    delay_exact #v[true, false, true] (by decide) history
  have quiet : Request.Quiet [.pulse, .scheduleValue 7, .pulse, .pulse] := by
    unfold Request.Quiet
    decide
  exact ⟨by decide, by decide, delayed 4 (by decide), (turns rfl rfl _ quiet).2 (by decide)⟩

end BitSerial.DelayLine
