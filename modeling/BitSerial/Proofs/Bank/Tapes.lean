import BitSerial.Proofs.Bank.Alignment
import BitSerial.Proofs.Bank.Independence
import BitSerial.Proofs.DelayLine.Inscriptions

/-!
# Static tapes

The cells of a channel move up with every pulse, and its position counts the pulses.  Taken
together nothing moves but the position: the cell so far behind the head is the one so far
behind the position on a tape, and a pulse changes the tape at the position only.  That holds
with bits pending, with refresh off and with the head inside a word, and everything else that a
bank does is made of such pulses.
-/

namespace BitSerial.Bank

open DelayLine

variable {channels words : Nat} {channel : Fin channels} {bank before after : Bank channels words}

/-- The cell at a place of a channel's tape, places counted from where the position is zero. -/
def tape (bank : Bank channels words) (channel : Fin channels) (place : Nat) : Bit :=
  (bank.line channel).bits.getD
    ((place + words * 40 - bank.position channel) % (words * 40)) false

/-- The bit that a pulse of a channel puts in place of the one it emits. -/
def entering (bank : Bank channels words) (channel : Fin channels) : Bit :=
  match (bank.line channel).pending with
  | some bit => bit
  | none =>
      if (bank.line channel).refresh then bank.tape channel (bank.position channel) else false

/-- What a bank has to be like after a pulse of a channel. -/
structure Pulsed (channel : Fin channels) (before after : Bank channels words) : Prop where
  cells : (after.line channel).bits =
    (before.line channel).bits.tail ++ [before.entering channel]
  tape : ∀ place < words * 40, after.tape channel place =
    if place = before.position channel then before.entering channel else before.tape channel place
  position : after.position channel = (before.position channel + 1) % (words * 40)
  pending : (after.line channel).pending = none
  refresh : (after.line channel).refresh = (before.line channel).refresh
  others : ∀ other ≠ channel, after.line other = before.line other

/-- What a bank has to be like after the pending bit or the switch of a channel was set. -/
structure Adjusted (channel : Fin channels) (pending : Option Bit) (refresh : Bool)
    (before after : Bank channels words) : Prop where
  cells : (after.line channel).bits = (before.line channel).bits
  tape : after.tape channel = before.tape channel
  position : after.position channel = before.position channel
  pending : (after.line channel).pending = pending
  refresh : (after.line channel).refresh = refresh
  others : ∀ other ≠ channel, after.line other = before.line other

/-- Pulse a channel once for each list of a plan, with the bits of the list scheduled before. -/
def inscription (channel : Nat) (plan : List (List Bit)) : List Request :=
  plan.flatMap fun bits => bits.map (.schedule channel) ++ [.pulse channel]

/-- What a bank has to make of a word that it is asked for: wait for it pulse by pulse, and then
let it pass with as many pulses as it has bits, each of which is scheduled before if the word is
written. -/
structure Passes (channel : Fin channels) (word : Fin words) (wait : Nat)
    (before aligned : Bank channels words) : Prop where
  pulses : aligned = (before.serveAll (List.replicate wait (.pulse channel))).2
  head : aligned.position channel = word * 40
  align : before.serve (.align channel word) = (.ok (.count wait), aligned)
  read : ∃ bits after,
    aligned.serveAll (List.replicate 40 (.pulse channel)) =
        (bits.map fun bit => .ok (.bit bit), after) ∧
      before.serve (.read channel word) = (.ok (.word (before.order.collect bits)), after)
  write : ∀ value, before.serve (.write channel word value) =
    (.ok .done,
      (aligned.serveAll (inscription channel ((before.order.bits value).map fun bit => [bit]))).2)
  peek : ∃ value, before.serve (.peek channel word) = (.ok (.word value), before) ∧
    before.order.bits value =
      (List.range 40).map fun place => before.tape channel (word * 40 + place)

/-- What a bank has to be like after a reset. -/
structure Cleared (bank : Bank channels words) : Prop where
  tape : ∀ channel place, bank.tape channel place = false
  position : ∀ channel, bank.position channel = 0
  pending : ∀ channel, (bank.line channel).pending = none
  refresh : ∀ channel, (bank.line channel).refresh = true

/-- What a bank has to be like after a revolution of a channel with a plan: every place of the
tape holds the last bit that was scheduled for the pulse over it, else what refresh puts back. -/
structure Inscribed (channel : Fin channels) (plan : List (List Bit))
    (before after : Bank channels words) : Prop where
  tape : ∀ count < words * 40,
    after.tape channel ((before.position channel + count) % (words * 40)) =
      leaves (before.line channel).refresh (plan.getD count [])
        (before.tape channel ((before.position channel + count) % (words * 40)))
  bare : before.position channel = 0 → (before.line channel).refresh = false →
    ∀ place < words * 40, after.tape channel place = (plan.getD place []).getLast?.getD false
  position : after.position channel = before.position channel
  pending : (after.line channel).pending = none
  refresh : (after.line channel).refresh = (before.line channel).refresh

/-! ## Tapes and cells -/

theorem tape_eq_cell (bank : Bank channels words) (channel : Fin channels) (place : Nat) :
    bank.tape channel place = (bank.line channel).cell place := by
  have near : (place + words * 40 - bank.position channel) % (words * 40) < words * 40 :=
    Nat.mod_lt _ (bank.line channel).head.pos
  rw [tape, List.getD_eq_getElem?_getD, getElem?_bits _ near, Option.getD_some, peek_eq_cell]
  apply cell_congr
  exact add_wait_mod (bank.position_lt channel) place

/-- Behind the head stands what is behind the position on the tape. -/
theorem getElem?_bits_eq_tape (bank : Bank channels words) (channel : Fin channels)
    {behind : Nat} (inside : behind < words * 40) :
    (bank.line channel).bits[behind]? =
      some (bank.tape channel ((bank.position channel + behind) % (words * 40))) := by
  rw [getElem?_bits _ inside, tape_eq_cell, peek_eq_cell]
  apply congrArg some
  apply cell_congr
  exact (Nat.mod_mod _ _).symm

theorem front_eq_tape (bank : Bank channels words) (channel : Fin channels) :
    (bank.line channel).front = bank.tape channel (bank.position channel) := by
  rw [tape_eq_cell, ← peek_zero]
  rfl

theorem entering_eq (bank : Bank channels words) (channel : Fin channels) :
    bank.entering channel =
      injected (bank.line channel).front (bank.line channel).pending
        (bank.line channel).refresh := by
  rw [entering, injected, front_eq_tape]
  cases (bank.line channel).pending with
  | some bit => rfl
  | none => cases (bank.line channel).refresh <;> rfl

theorem stream_eq_tape (bank : Bank channels words) (channel : Fin channels) (word : Fin words) :
    bank.order.bits (bank.peekWord channel word) =
      (List.range 40).map fun place => bank.tape channel (word * 40 + place) := by
  rw [peekWord_eq_segment, StreamOrder.bits_collect _ (by simp), DelayLine.segment]
  apply List.map_congr_left
  intro place _
  exact (bank.tape_eq_cell channel (word * 40 + place)).symm

/-! ## Single pulses -/

theorem pulsed_pulse (bank : Bank channels words) (channel : Fin channels) :
    Pulsed channel bank (bank.pulse channel) := by
  have line : (bank.pulse channel).line channel = (bank.line channel).pulse :=
    line_modifyLine bank channel _
  constructor
  · rw [line, bits_pulse, entering_eq]
  · intro place inside
    rw [tape_eq_cell, line, cell_pulse, Nat.mod_eq_of_lt inside, ← entering_eq, ← tape_eq_cell]
    rfl
  · rw [position, line, head_pulse, val_next, position]
  · rw [line, pending_pulse]
  · rw [line, refresh_pulse]
  · exact fun other apart => line_modifyLine_of_ne bank apart _

/-- The pending bit and the switch do not show on the tape. -/
theorem adjusted_modifyLine {change : DelayLine (words * 40) → DelayLine (words * 40)}
    {pending : Option Bit} {refresh : Bool}
    (changes : change (bank.line channel) =
      { bank.line channel with pending := pending, refresh := refresh }) :
    Adjusted channel pending refresh bank (bank.modifyLine channel change) := by
  have line : (bank.modifyLine channel change).line channel =
      { bank.line channel with pending := pending, refresh := refresh } :=
    (line_modifyLine bank channel change).trans changes
  constructor
  · rw [line]
    rfl
  · funext place
    rw [tape_eq_cell, tape_eq_cell, line]
    rfl
  · rw [position, line, position]
  · rw [line]
  · rw [line]
  · exact fun other apart => line_modifyLine_of_ne bank apart _

theorem serve_schedule (bank : Bank channels words) (channel : Fin channels) (bit : Bit) :
    bank.serve (.schedule channel bit) =
      (.ok .done, bank.modifyLine channel (DelayLine.schedule bit)) := by
  rw [serve, onChannel, channel?, dif_pos channel.isLt]

theorem serve_setRefresh (bank : Bank channels words) (channel : Fin channels) (refresh : Bool) :
    bank.serve (.setRefresh channel refresh) =
      (.ok .done, bank.modifyLine channel (DelayLine.setRefresh refresh)) := by
  rw [serve, onChannel, channel?, dif_pos channel.isLt]

theorem serve_pulse (bank : Bank channels words) (channel : Fin channels) :
    bank.serve (.pulse channel) = (.ok (.bit (bank.line channel).front), bank.pulse channel) := by
  rw [serve, onChannel, channel?, dif_pos channel.isLt]

/-! ## Runs of pulses -/

/-- Pulses answer with the bits at the head. -/
theorem serveAll_pulses (bank : Bank channels words) (channel : Fin channels) {count : Nat}
    (short : count ≤ words * 40) :
    bank.serveAll (List.replicate count (.pulse channel)) =
      (((bank.line channel).bits.take count).map fun bit => .ok (.bit bit),
        (Bank.pulse channel)^[count] bank) := by
  induction count generalizing bank with
  | zero => simp [serveAll]
  | succ count ih =>
      have line : (bank.pulse channel).line channel = (bank.line channel).pulse :=
        line_modifyLine bank channel _
      rw [List.replicate_succ, serveAll_cons, serve_pulse, ih _ (Nat.le_of_succ_le short), line,
        take_bits_pulse _ short, take_bits_succ]
      rfl

theorem serveAll_schedules (bank : Bank channels words) (channel : Fin channels)
    (bits : List Bit) :
    (bank.serveAll (bits.map (.schedule channel))).2 =
      bank.modifyLine channel (DelayLine.scheduleAll bits) := by
  induction bits generalizing bank with
  | nil => exact (setLine_line bank channel).symm
  | cons bit rest ih =>
      rw [List.map_cons, serveAll_cons, serve_schedule, ih, modifyLine_modifyLine]
      rfl

theorem serveAll_inscription (bank : Bank channels words) (channel : Fin channels)
    (plan : List (List Bit)) :
    (bank.serveAll (inscription channel plan)).2 =
      bank.modifyLine channel (DelayLine.inscribe plan) := by
  induction plan generalizing bank with
  | nil => exact (setLine_line bank channel).symm
  | cons bits rest ih =>
      have first : (bank.serveAll (bits.map (.schedule channel) ++ [.pulse channel])).2 =
          bank.modifyLine channel (DelayLine.pulse ∘ DelayLine.scheduleAll bits) := by
        rw [serveAll_append, serveAll_schedules, serveAll_cons, serve_pulse, Bank.pulse,
          modifyLine_modifyLine]
        rfl
      rw [inscription, List.flatMap_cons, ← inscription, serveAll_append, first, ih,
        modifyLine_modifyLine]
      rfl

/-! ## Words and resets -/

theorem passes_align (bank : Bank channels words) (channel : Fin channels) (word : Fin words) :
    Passes channel word ((word * 40 + words * 40 - bank.position channel) % (words * 40)) bank
      (bank.align channel word) := by
  have inside := word_mul_add_le word
  have wait : (word * 40 + words * 40 - bank.position channel) % (words * 40) ≤ words * 40 :=
    (Nat.mod_lt _ (bank.line channel).head.pos).le
  constructor
  · rw [serveAll_pulses _ _ wait, align_eq_iterate, waitFor_eq]
  · exact bank.position_align channel word
  · rw [serve_align, waitFor_eq]
  · have wordTime : 40 ≤ words * 40 := by omega
    refine ⟨_, _, serveAll_pulses (bank.align channel word) channel wordTime, ?_⟩
    rw [serve, onPlace, bank.place?_of_inside channel.isLt word.isLt]
    dsimp only
    rw [readWord, emit_eq _ wordTime, pulse_iterate]
    rfl
  · intro value
    rw [serve, onPlace, bank.place?_of_inside channel.isLt word.isLt, serveAll_inscription,
      inscribe_singletons]
    rfl
  · refine ⟨bank.peekWord channel word, ?_, bank.stream_eq_tape channel word⟩
    rw [serve, onPlace, bank.place?_of_inside channel.isLt word.isLt]

theorem cleared_reset (bank : Bank channels words) : Cleared bank.reset := by
  constructor
  · intro channel place
    rw [tape_eq_cell, line_reset]
    exact cell_of_clear rfl place
  · exact bank.position_reset
  · intro channel
    rw [line_reset]
    rfl
  · intro channel
    rw [line_reset]
    rfl

/-! ## Revolutions -/

/-- A revolution brings the head back to where it was. -/
theorem position_of_inscribe {plan : List (List Bit)}
    (line : after.line channel = (before.line channel).inscribe plan)
    (full : plan.length = words * 40) : after.position channel = before.position channel := by
  rw [Bank.position, line, head_inscribe, full, Nat.add_mod_right]
  exact Nat.mod_eq_of_lt (before.position_lt channel)

theorem tape_of_inscribe {bits : List Bit} {rest : List (List Bit)}
    (line : after.line channel = (before.line channel).inscribe (bits :: rest))
    (full : rest.length + 1 = words * 40) {count : Nat} (inside : count < words * 40) :
    after.tape channel ((before.position channel + count) % (words * 40)) =
      leaves (before.line channel).refresh
        ((((before.line channel).pending.toList ++ bits) :: rest).getD count [])
        (before.tape channel ((before.position channel + count) % (words * 40))) := by
  have passed := getElem?_bits_eq_tape before channel inside
  rw [getElem?_bits _ inside, Option.some_inj] at passed
  -- a bit that is pending already counts as scheduled before the first pulse
  have idle : ({ before.line channel with pending := none } : DelayLine (words * 40)).pending =
      none :=
    rfl
  have whole : (((before.line channel).pending.toList ++ bits) :: rest).length = words * 40 :=
    full
  have left := getElem?_bits_eq_tape after channel inside
  rw [position_of_inscribe line full, line, inscribe_pending,
    getElem?_bits_inscribe idle whole inside, Option.some_inj] at left
  rw [← left, ← passed]
  rfl

/-- What other channels are asked for during a revolution does not matter. -/
theorem inscribed_serveAll {bits : List Bit} {rest : List (List Bit)} {history : List Request}
    (full : rest.length + 1 = words * 40)
    (own : history.filter (Request.concerns channel) = inscription channel (bits :: rest)) :
    Inscribed channel (((bank.line channel).pending.toList ++ bits) :: rest) bank
      (bank.serveAll history).2 := by
  have agree := ((AgreeOn.refl channel bank).serveAll history).2
  rw [own, serveAll_inscription] at agree
  have line : (bank.serveAll history).2.line channel =
      (bank.line channel).inscribe (bits :: rest) :=
    agree.line.trans (line_modifyLine bank channel _)
  constructor
  · intro count
    exact tape_of_inscribe line full
  · intro start dark place inside
    have written := tape_of_inscribe line full inside
    rw [start, Nat.zero_add, Nat.mod_eq_of_lt inside, dark] at written
    rw [written, leaves, Bool.false_and]
  · exact position_of_inscribe line full
  · rw [line, pending_inscribe]
  · rw [line, refresh_inscribe]

/-- A bank is an array of static tapes under moving heads, whatever is pending and switched off
on it and wherever its heads stand.  A pulse answers with the bit at the position, changes that
place of the tape only and moves the position by one; a wait, a read and a write are such pulses.
Channels are independent, and a revolution leaves the bits scheduled during it and what refresh
puts back. -/
theorem static_tapes (bank : Bank channels words) (channel : Fin channels) :
    (∀ behind < words * 40, (bank.line channel).bits[behind]? =
      some (bank.tape channel ((bank.position channel + behind) % (words * 40)))) ∧
    (∃ after, bank.serve (.pulse channel) =
        (.ok (.bit (bank.tape channel (bank.position channel))), after) ∧
      Pulsed channel bank after) ∧
    (∀ bit, ∃ after, bank.serve (.schedule channel bit) = (.ok .done, after) ∧
      Adjusted channel (some bit) (bank.line channel).refresh bank after) ∧
    (∀ refresh, ∃ after, bank.serve (.setRefresh channel refresh) = (.ok .done, after) ∧
      Adjusted channel (bank.line channel).pending refresh bank after) ∧
    (∀ word, ∃ aligned, Passes channel word
      ((word * 40 + words * 40 - bank.position channel) % (words * 40)) bank aligned) ∧
    (∃ after, bank.serve .reset = (.ok .done, after) ∧ Cleared after) ∧
    (∀ (other : Bank channels words), AgreeOn channel bank other → ∀ history,
      bank.repliesAbout channel history =
          (other.serveAll (history.filter (Request.concerns channel))).1 ∧
        AgreeOn channel (bank.serveAll history).2
          (other.serveAll (history.filter (Request.concerns channel))).2) ∧
    (∀ bits rest history, rest.length + 1 = words * 40 →
      history.filter (Request.concerns channel) = inscription channel (bits :: rest) →
      Inscribed channel (((bank.line channel).pending.toList ++ bits) :: rest) bank
        (bank.serveAll history).2) := by
  refine ⟨?_, ?_, ?_, ?_, ?_, ?_, ?_, ?_⟩
  · intro behind inside
    exact bank.getElem?_bits_eq_tape channel inside
  · rw [serve_pulse, front_eq_tape]
    exact ⟨_, rfl, bank.pulsed_pulse channel⟩
  · intro bit
    exact ⟨_, bank.serve_schedule channel bit, adjusted_modifyLine rfl⟩
  · intro refresh
    exact ⟨_, bank.serve_setRefresh channel refresh, adjusted_modifyLine rfl⟩
  · intro word
    exact ⟨_, bank.passes_align channel word⟩
  · exact ⟨_, rfl, bank.cleared_reset⟩
  · intro other agree history
    exact agree.serveAll history
  · intro bits rest history full own
    exact inscribed_serveAll full own

/-- A word of ones goes round with a bit pending and refresh off, another channel turning with
it: the pending bit is left and the last of two bits scheduled in the end. -/
theorem static_tapes_bareRevolution :
    ∃ bank after : Bank 2 1, bank.tape 1 5 = true ∧ (bank.line 1).pending = some true ∧
      (bank.line 1).refresh = false ∧
      after = (bank.serveAll (.pulse 0 ::
        inscription 1 ([] :: List.replicate 38 [] ++ [[false, true]]))).2 ∧
      after.tape 1 0 = true ∧ after.tape 1 5 = false ∧ after.tape 1 39 = true := by
  obtain ⟨bank, position, tape, pending, refresh⟩ : ∃ bank : Bank 2 1, bank.position 1 = 0 ∧
      bank.tape 1 5 = true ∧ (bank.line 1).pending = some true ∧
      (bank.line 1).refresh = false := by
    refine ⟨((blank "data" .lowFirst (by decide)).writeWord 1 0 (-1)).modifyLine 1
      (DelayLine.schedule true ∘ DelayLine.setRefresh false), by decide +kernel,
      by decide +kernel, ?_, ?_⟩
    all_goals
      rw [line_modifyLine]
      rfl
  obtain ⟨-, -, -, -, -, -, -, revolution⟩ := bank.static_tapes 1
  have left := (revolution [] (List.replicate 38 [] ++ [[false, true]])
    (.pulse 0 :: inscription 1 ([] :: List.replicate 38 [] ++ [[false, true]])) rfl rfl).bare
    position refresh
  rw [pending] at left
  exact ⟨bank, _, tape, pending, refresh, rfl, left 0 (by decide), left 5 (by decide),
    left 39 (by decide)⟩

end BitSerial.Bank
