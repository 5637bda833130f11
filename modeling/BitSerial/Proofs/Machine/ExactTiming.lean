import BitSerial.Proofs.Machine.Histories
import BitSerial.Proofs.Machine.Timing

/-!
# Exact timing

A step takes the wait for its word, the forty pulses of fetching it and what the
instruction takes.  Code that goes on word by word never waits, since the next word
follows the one just fetched; an exchange with the program line spoils that, and always
by the same amount.
-/

namespace BitSerial.Machine

variable {geometry : Geometry} {machine fresh after last : Machine geometry}
  {instruction : Instruction}

/-! ## Steps -/

/-- Counting pulses is exact while the count fits. -/
theorem toNat_add_ofNat {ticks : UInt64} {pulses : Nat}
    (fits : ticks.toNat + pulses < countLimit) :
    (ticks + UInt64.ofNat pulses).toNat = ticks.toNat + pulses := by
  rw [UInt64.toNat_add, UInt64.toNat_ofNat', Nat.add_mod_mod]
  exact Nat.mod_eq_of_lt fits

theorem clock_fetch (machine : Machine geometry) :
    machine.fetch.2.Aligned ∧
      machine.fetch.2.clock = (machine.counter + 1) % geometry.mainWords :=
  Bank.clock_of_behind (machine.main.position_readWord Bank.sole machine.counter)

theorem ticks_fetch (aligned : machine.Aligned) :
    machine.fetch.2.ticks = machine.ticks + UInt64.ofNat (machine.fetchWait + 40) := by
  have wait : machine.main.waitFor Bank.sole machine.counter = machine.fetchWait := by
    rw [Bank.waitFor_of_aligned aligned, fetchWait, Nat.mul_comm]
    rfl
  rw [fetch, wait]

/-- Fetching moves the program line alone. -/
theorem cost_fetch (machine : Machine geometry) (instruction : Instruction) :
    machine.fetch.2.cost instruction = machine.cost instruction := by
  cases instruction with
  | plain op => cases op <;> rfl
  | wide op operand => cases op <;> rfl
  | data op address => cases op <;> rfl

theorem takes_execute_fetched (machine : Machine geometry) (instruction : Instruction) :
    Takes (machine.fetch.2.execute instruction) machine.fetch.2.ticks (machine.cost instruction)
      (machine.fetch.2.clockBehind instruction) := by
  obtain ⟨aligned, clock⟩ := clock_fetch machine
  have takes := takes_execute aligned clock instruction
  rwa [cost_fetch] at takes

/-- A step that succeeds has decoded the word that it fetched and executed what it says. -/
theorem decode_of_step (stepped : machine.step = (.ok instruction, after)) :
    Instruction.decode machine.fetch.1 = .ok instruction ∧
      ∃ flow executed, machine.fetch.2.execute instruction = (.ok flow, executed) ∧
        after = executed.complete instruction flow := by
  rw [step] at stepped
  split at stepped
  · cases stepped
  · split at stepped
    · rename_i cycled
      cases stepped
      rw [cycle] at cycled
      dsimp only at cycled
      split at cycled
      · cases cycled
      · rename_i decoded
        split at cycled
        · cases cycled
        · rename_i executed
          cases cycled
          exact ⟨decoded, _, _, executed, rfl⟩
    · cases stepped

theorem exists_of_step (stepped : machine.step = (.ok instruction, after)) :
    ∃ flow executed, machine.fetch.2.execute instruction = (.ok flow, executed) ∧
      after = executed.complete instruction flow :=
  (decode_of_step stepped).2

theorem aligned_step (aligned : machine.Aligned) : machine.step.2.Aligned := by
  have cycled : machine.cycle.2.Aligned :=
    holds_cycle (clock_fetch machine).1
      (fun instruction => (takes_execute_fetched machine instruction).aligned)
      fun _ _ _ kept => kept
  exact holds_step aligned cycled fun _ kept => kept

/-- What a successful step adds to the time and leaves at the head. -/
theorem ticks_step (stepped : machine.step = (.ok instruction, after)) :
    after.ticks = machine.fetch.2.ticks + UInt64.ofNat (machine.cost instruction) ∧
      after.clock = machine.clockBehind instruction := by
  obtain ⟨flow, executed, outcome, rfl⟩ := exists_of_step stepped
  have takes := takes_execute_fetched machine instruction
  rw [outcome] at takes
  obtain ⟨pulses, clock⟩ := takes.flow flow rfl
  refine ⟨?_, ?_⟩
  · show executed.ticks + UInt64.ofNat flow.ticks = _
    rw [pulses, takes.ticks]
  · exact clock.trans (by cases instruction <;> rfl)

/-! ## Histories keep the program line between words -/

theorem aligned_loadWords {words : List Word}
    (loaded : machine.loadWords words = (.ok (), after)) : after.Aligned := by
  rw [loadWords] at loaded
  split at loaded
  · cases loaded
  · cases loaded
    rw [Aligned, Bank.position_align]
    exact Nat.mul_mod_left _ 40

theorem Handles.aligned (handles : machine.Handles after) (aligned : machine.Aligned) :
    after.Aligned := by
  cases handles with
  | loadWords tried => exact holds_loadWords aligned aligned_loadWords tried
  | loadProgram tried => exact holds_loadProgram aligned aligned_loadWords tried
  | step => exact aligned_step aligned
  | @run _ _ fuel outcome ended =>
      obtain ⟨-, rfl⟩ := eq_runFor_of_run ended
      exact holds_runFor (fun _ => aligned_step) fuel aligned
  | runLimited maximum => exact holds_runLimited (fun _ => aligned_step) maximum aligned
  | reset => exact congrArg (· % 40) (Bank.position_reset machine.main Bank.sole)
  | takeOutput | register | data => exact aligned

theorem Handled.aligned (built : build? geometry = .ok fresh) (handled : fresh.Handled machine) :
    machine.Aligned := by
  induction handled with
  | refl =>
      obtain ⟨valid, rfl⟩ := eq_fresh_of_build built
      exact congrArg (· % 40) (Bank.position_blank _ _ valid.mainWords_pos Bank.sole)
  | tail _ last ih => exact last.aligned ih

/-! ## Code that goes on word by word -/

/-- A run of instructions that exchange nothing with the program line, each followed by
the word behind it, and the pulses of fetching and executing them without a wait. -/
inductive Straight : Machine geometry → Nat → Machine geometry → Prop
  | done (machine : Machine geometry) : Straight machine 0 machine
  | step {machine after last : Machine geometry} {instruction : Instruction} {pulses : Nat}
      (stepped : machine.step = (.ok instruction, after)) (notMain : instruction.usesMain = false)
      (onward : after.counter = machine.successor) (rest : Straight after pulses last) :
      Straight machine (40 + machine.cost instruction + pulses) last

theorem clockBehind_of_not_usesMain (notMain : instruction.usesMain = false)
    (machine : Machine geometry) :
    machine.clockBehind instruction = (machine.counter + 1) % geometry.mainWords := by
  cases instruction with
  | plain | data => rfl
  | wide op operand => cases op <;> first | rfl | cases notMain

/-- Behind such an instruction the next word is at the head. -/
theorem fetchWait_of_onward (stepped : machine.step = (.ok instruction, after))
    (notMain : instruction.usesMain = false) (onward : after.counter = machine.successor) :
    after.fetchWait = 0 := by
  have ready : after.clock = after.counter := by
    rw [(ticks_step stepped).2, clockBehind_of_not_usesMain notMain, onward]
    rfl
  rw [fetchWait, ready, Nat.add_sub_cancel_left, Nat.mod_self]

/-- A straight run that starts at its word ends in front of the next one. -/
theorem Straight.ready {pulses : Nat} (straight : machine.Straight pulses last)
    (ready : machine.fetchWait = 0) : last.fetchWait = 0 := by
  induction straight with
  | done machine => exact ready
  | step stepped notMain onward rest ih => exact ih (fetchWait_of_onward stepped notMain onward)

/-- No instruction of a straight run waits for its word. -/
theorem Straight.ticks {pulses : Nat} (straight : machine.Straight pulses last)
    (aligned : machine.Aligned) (ready : machine.fetchWait = 0) :
    last.ticks = machine.ticks + UInt64.ofNat pulses := by
  induction straight with
  | done machine => exact (UInt64.add_zero _).symm
  | @step machine after last instruction pulses stepped notMain onward rest ih =>
      have alignedAfter := aligned_step aligned
      rw [stepped] at alignedAfter
      rw [ih alignedAfter (fetchWait_of_onward stepped notMain onward), (ticks_step stepped).1,
        ticks_fetch aligned, ready, Nat.zero_add, UInt64.add_assoc, UInt64.add_assoc,
        ← UInt64.ofNat_add, ← UInt64.ofNat_add, ← Nat.add_assoc]

/-! ## Exchanges with the program line -/

/-- An exchange with a word that the program line has. -/
structure Exchanges (before after : Machine geometry) (instruction : Instruction)
    (address : Nat) : Prop where
  inside : address < geometry.mainWords
  cost : before.cost instruction = before.exchangePulses address
  clock : before.clockBehind instruction = (address + 1) % geometry.mainWords
  counter : after.counter = before.successor

/-- An exchange that succeeds finds its word and goes on with the next one. -/
theorem exists_exchanges (stepped : machine.step = (.ok instruction, after))
    (usesMain : instruction.usesMain = true) :
    ∃ address, machine.Exchanges after instruction address := by
  obtain ⟨flow, executed, outcome, rfl⟩ := exists_of_step stepped
  cases instruction with
  | plain | data => cases usesMain
  | wide op operand =>
      cases op with
      | lai | lbi | lea | leb | rnd | mla | jmp | jmpa | jza | jna => cases usesMain
      | ldp | stp =>
          rw [execute, executeWide, mainPlace?] at outcome
          by_cases inside : operand.toNat < geometry.mainWords
          · rw [dif_pos inside] at outcome
            cases outcome
            exact ⟨operand.toNat, inside, rfl, rfl, rfl⟩
          · rw [dif_neg inside] at outcome
            cases outcome

/-- From behind a word round to an exchange, and from behind that round to the next
word, is one revolution and a word. -/
theorem exchangePulses_add_wait {counter address words : Nat} (counterInside : counter < words)
    (addressInside : address < words) :
    40 * ((address + words - (counter + 1)) % words) + 40 +
        (40 * (((counter + 1) % words + words - (address + 1) % words) % words) + 40) =
      40 * (words + 1) := by
  have value {number : Nat} (small : number < 2 * words) :
      number % words = if number < words then number else number - words := by
    split
    · exact Nat.mod_eq_of_lt ‹_›
    · rw [Nat.mod_eq_sub_mod (by omega), Nat.mod_eq_of_lt (by omega)]
  have nextInside := Nat.mod_lt (counter + 1) (Nat.zero_lt_of_lt counterInside)
  rw [value (show address + words - (counter + 1) < 2 * words by omega),
    value (show (counter + 1) % words + words - (address + 1) % words < 2 * words by omega),
    value (show counter + 1 < 2 * words by omega), value (show address + 1 < 2 * words by omega)]
  split_ifs <;> omega

/-- An exchange and the fetch behind it take one revolution and a word. -/
theorem Exchanges.fetch_ticks {address : Nat}
    (exchanges : machine.Exchanges after instruction address) (aligned : after.Aligned)
    (stepped : machine.step = (.ok instruction, after)) :
    after.fetch.2.ticks =
      machine.fetch.2.ticks + UInt64.ofNat (40 * (geometry.mainWords + 1)) := by
  obtain ⟨inside, cost, clock, counter⟩ := exchanges
  obtain ⟨ticks, passed⟩ := ticks_step stepped
  have whole := exchangePulses_add_wait machine.counter.isLt inside
  have wait : after.fetchWait = 40 * (((machine.counter + 1) % geometry.mainWords +
      geometry.mainWords - (address + 1) % geometry.mainWords) % geometry.mainWords) := by
    rw [fetchWait, passed, clock, counter]
    rfl
  rw [ticks_fetch aligned, ticks, UInt64.add_assoc, ← UInt64.ofNat_add, cost, exchangePulses, wait,
    whole]

/-- A step that succeeds takes the wait for its word, forty pulses and what the table
says, and leaves at the head what follows the word that passed last.  So going on with
the next word means no wait, and however many instructions do so, none of them waits.
An exchange with the program line and the fetch behind it take one revolution and a
word, whatever the address. -/
theorem Handled.exact_timing (built : build? geometry = .ok fresh)
    (handled : fresh.Handled machine) :
    (∀ (instruction : Instruction) (after : Machine geometry),
      machine.step = (.ok instruction, after) →
        (machine.ticks.toNat + (machine.fetchWait + 40 + machine.cost instruction) < countLimit →
          after.ticks.toNat =
            machine.ticks.toNat + (machine.fetchWait + 40 + machine.cost instruction)) ∧
        after.clock = machine.clockBehind instruction ∧
        (instruction.usesMain = false → after.counter = machine.successor →
          after.fetchWait = 0) ∧
        (instruction.usesMain = true → after.counter = machine.successor ∧
          (machine.fetch.2.ticks.toNat + 40 * (geometry.mainWords + 1) < countLimit →
            after.fetch.2.ticks.toNat =
              machine.fetch.2.ticks.toNat + 40 * (geometry.mainWords + 1)))) ∧
    ∀ (pulses : Nat) (last : Machine geometry), machine.Straight pulses last →
      machine.fetchWait = 0 → last.fetchWait = 0 ∧
        (machine.ticks.toNat + pulses < countLimit →
          last.ticks.toNat = machine.ticks.toNat + pulses) := by
  have aligned := handled.aligned built
  constructor
  · intro instruction after stepped
    have alignedAfter := aligned_step aligned
    rw [stepped] at alignedAfter
    obtain ⟨ticks, clock⟩ := ticks_step stepped
    refine ⟨?_, clock, ?_, ?_⟩
    · intro fits
      rw [ticks, ticks_fetch aligned, UInt64.add_assoc, ← UInt64.ofNat_add]
      exact toNat_add_ofNat fits
    · intro notMain onward
      exact fetchWait_of_onward stepped notMain onward
    · intro usesMain
      obtain ⟨address, exchanges⟩ := exists_exchanges stepped usesMain
      refine ⟨exchanges.counter, fun fits => ?_⟩
      rw [exchanges.fetch_ticks alignedAfter stepped]
      exact toNat_add_ofNat fits
  · intro pulses last straight ready
    refine ⟨straight.ready ready, fun fits => ?_⟩
    rw [straight.ticks aligned ready]
    exact toNat_add_ofNat fits

/-- Loading seven and multiplying by it take 80 + 240 pulses.  An exchange at the end of
the line takes 2600 pulses, and so it does with the fetch of the first word in place of
its own. -/
theorem exact_timing_multiplication :
    ∃ first last after : Machine {}, first.Straight 320 last ∧
      last.ticks.toNat = first.ticks.toNat + 320 ∧
      last.step = (.ok (.wide .ldp 63), after) ∧
      after.ticks.toNat = last.ticks.toNat + 2600 ∧ after.clock = 0 ∧
      after.fetch.2.ticks.toNat = last.fetch.2.ticks.toNat + 2600 := by
  have built : build? {} = .ok (fresh Geometry.valid_standard) := rfl
  obtain ⟨first, loaded⟩ :
      ∃ machine, (fresh Geometry.valid_standard).loadWords
        [0x0200000007#40, 0x0C00000000#40, 0x180000003F#40] = (.ok (), machine) :=
    ⟨_, rfl⟩
  have representsFresh := represents_fresh Geometry.valid_standard
  have loadedFrom := representsFresh.loadedFrom loaded
  have represents := representsFresh.loadWords loaded
  have representsMul := represents.step.2
  have representsLdp := representsMul.step.2
  have handled : (fresh Geometry.valid_standard).Handled first := .single (.loadWords loaded)
  have handledLdp : (fresh Geometry.valid_standard).Handled first.step.2.step.2 :=
    (handled.tail (.step first)).tail (.step first.step.2)
  have early : first.ticks.toNat = 5000 := loadedFrom.ticks (by decide +kernel)
  have ready : first.fetchWait = 0 := by
    rw [fetchWait, clock, Bank.clock, loadedFrom.position, loadedFrom.base, represents.counter]
    decide +kernel
  have straight : first.Straight 320 first.step.2.step.2 := by
    have product : first.step.2.cost (.plain .mul) = 200 := by
      rw [cost, representsMul.registers.peek]
      decide +kernel
    have multiplies : first.step.2.Straight (40 + first.step.2.cost (.plain .mul) + 0)
        first.step.2.step.2 := by
      refine .step (Prod.ext (representsMul.step.1.trans rfl) rfl) rfl (Fin.ext ?_) (.done _)
      show first.step.2.step.2.counter.val = (first.step.2.counter.val + 1) % 64
      rw [representsLdp.counter, representsMul.counter]
      decide +kernel
    rw [product] at multiplies
    refine .step (Prod.ext (represents.step.1.trans rfl) rfl) rfl (Fin.ext ?_) multiplies
    show first.step.2.counter.val = (first.counter.val + 1) % 64
    rw [representsMul.counter, represents.counter]
    decide +kernel
  have stepped : first.step.2.step.2.step = (.ok (.wide .ldp 63), first.step.2.step.2.step.2) :=
    Prod.ext (representsLdp.step.1.trans rfl) rfl
  obtain ⟨readyLdp, ticks⟩ := (handled.exact_timing built).2 320 _ straight ready
  obtain ⟨takes, clock, -, exchanges⟩ := (handledLdp.exact_timing built).1 _ _ stepped
  have late : first.step.2.step.2.ticks.toNat = 5320 := by
    rw [ticks (by rw [early]; decide), early]
  have exchange : first.step.2.step.2.cost (.wide .ldp 63) = 2560 := by
    rw [cost, exchangePulses, representsLdp.counter]
    decide +kernel
  have fetched : first.step.2.step.2.fetch.2.ticks.toNat = 5360 := by
    rw [ticks_fetch (handledLdp.aligned built), readyLdp, toNat_add_ofNat (by rw [late]; decide),
      late]
  refine ⟨first, first.step.2.step.2, first.step.2.step.2.step.2, straight,
    late.trans (by rw [early]), stepped, ?_, clock, ?_⟩
  · rw [takes (by rw [late, readyLdp, exchange]; decide), readyLdp, exchange]
  · exact (exchanges rfl).2 (by rw [fetched]; decide)

end BitSerial.Machine
