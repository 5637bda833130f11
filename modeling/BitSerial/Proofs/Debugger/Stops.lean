import BitSerial.Proofs.Debugger.Reachable

/-!
# Stops

A tick looks at the machine before its step and at the breakpoints behind it.  So it stops
at a breakpoint exactly if the step succeeds and leads there.  Unless the step executed a
halt, the machine then stands in front of the word at the breakpoint and executes it next.
A halt moves the counter like any other instruction, and with a breakpoint behind it the
debugger tells of a stop in front of a word that will not be executed.
-/

namespace BitSerial

/-- A machine runs on behind every instruction but a halt. -/
theorem Machine.Reachable.state_of_step_ok {geometry : Geometry} {machine : Machine geometry}
    (reachable : machine.Reachable) {instruction : Instruction}
    (stepped : machine.step.1 = .ok instruction) :
    machine.step.2.state = if instruction = .plain .hlt then .halted else .running := by
  obtain ⟨outcome, after⟩ := reachable.represents.step
  rw [after.running]
  exact WordMachine.state_step_of_ok (outcome ▸ stepped)

namespace Debugger

variable {geometry : Geometry} {debugger : Debugger geometry}

/-- A debugger that was stopped at an address because there is a breakpoint. -/
structure StoppedAt (debugger : Debugger geometry) (address : Fin geometry.mainWords) : Prop where
  status : debugger.status = .stopped address
  held : debugger.running = false
  breakpoint : debugger.breakpoints.contains address = true
  counter : debugger.machine.counter = address

/-- A debugger whose next step executes the word at an address. -/
structure InFrontOf (debugger : Debugger geometry) (address : Fin geometry.mainWords) : Prop where
  running : debugger.machine.state = .running
  executes : (debugger.machine.step.1, debugger.step.machine.view) =
    debugger.machine.view.executeWord (debugger.machine.view.main address)

/-- A debugger whose next step finds the machine halted and leaves it alone. -/
structure AtEnd (debugger : Debugger geometry) : Prop where
  halted : debugger.machine.state = .halted
  status : debugger.step.status = .notRunning .halted
  machine : debugger.step.machine = debugger.machine

theorem atEnd_of_halted (halted : debugger.machine.state = .halted) : debugger.AtEnd := by
  constructor
  · exact halted
  · rw [step, halted]
  · rw [machine_step, Machine.step_of_halted halted]

/-- Wherever a running machine stands, it executes the word there. -/
theorem Reachable.inFrontOf (reachable : debugger.Reachable)
    (running : debugger.machine.state = .running) :
    debugger.InFrontOf debugger.machine.counter where
  running := running
  executes := by
    rw [machine_step, reachable.machine.view_step]
    exact WordMachine.step_of_running running

/-! ## Ticks of a debugger that goes -/

theorem tick_of_step_ok (going : debugger.running = true) {instruction : Instruction}
    {after : Machine geometry} (stepped : debugger.machine.step = (.ok instruction, after)) :
    debugger.tick =
      if debugger.breakpoints.contains after.counter then
        { debugger with machine := after, running := false, status := .stopped after.counter }
      else
        { debugger with
          machine := after
          status := .stepped debugger.machine.counter instruction.opcode
            (after.ticks - debugger.machine.ticks) } := by
  have running := Machine.running_of_step_ok (congrArg Prod.fst stepped)
  rw [tick, if_pos going, running]
  dsimp only
  rw [step, running]
  dsimp only
  rw [stepped]
  dsimp only
  rw [heed]
  dsimp only
  rw [going, Bool.true_and]

theorem tick_of_step_error (going : debugger.running = true)
    (running : debugger.machine.state = .running) {error : StepError} {after : Machine geometry}
    (failed : debugger.machine.step = (.error error, after)) :
    debugger.tick =
      { debugger with machine := after, running := false, status := .failed error } := by
  rw [tick, if_pos going, running]
  dsimp only
  rw [step, running]
  dsimp only
  rw [failed]
  rfl

theorem tick_of_halted (going : debugger.running = true)
    (halted : debugger.machine.state = .halted) :
    debugger.tick =
      { debugger with
        running := false
        status := .finished debugger.machine.cycles debugger.machine.ticks } := by
  rw [tick, if_pos going, halted]

/-- Only a step that succeeds and leads to a breakpoint is a stop. -/
theorem status_tick_eq_stopped_iff (going : debugger.running = true) {address : Nat} :
    debugger.tick.status = .stopped address ↔
      ∃ instruction, debugger.machine.step.1 = .ok instruction ∧
        debugger.machine.step.2.counter.val = address ∧
        debugger.breakpoints.contains address = true := by
  cases running : debugger.machine.state with
  | halted =>
      rw [tick_of_halted going running, Machine.step_of_halted running]
      simp
  | running =>
      rcases stepped : debugger.machine.step with ⟨outcome, after⟩
      cases outcome with
      | error error =>
          rw [tick_of_step_error going running stepped]
          simp
      | ok instruction =>
          rw [tick_of_step_ok going stepped]
          by_cases breakpoint : debugger.breakpoints.contains after.counter = true
          · rw [if_pos breakpoint]
            constructor
            · rintro ⟨⟩
              exact ⟨instruction, rfl, rfl, breakpoint⟩
            · rintro ⟨_, _, rfl, _⟩
              rfl
          · rw [if_neg breakpoint]
            constructor
            · rintro ⟨⟩
            · rintro ⟨_, _, rfl, contained⟩
              exact absurd contained breakpoint

/-- A stop leaves the breakpoints alone and the machine where the step led. -/
theorem stoppedAt_tick (going : debugger.running = true) {instruction : Instruction}
    (stepped : debugger.machine.step.1 = .ok instruction)
    (breakpoint : debugger.breakpoints.contains debugger.machine.step.2.counter = true) :
    debugger.tick.StoppedAt debugger.machine.step.2.counter := by
  rw [tick_of_step_ok going (Prod.ext stepped rfl), if_pos breakpoint]
  exact ⟨rfl, rfl, breakpoint, rfl⟩

theorem machine_tick_of_going (going : debugger.running = true) :
    debugger.tick.machine = debugger.machine.step.2 := by
  rw [machine_tick, if_pos going]

/-- A debugger that goes stops at a breakpoint exactly if the step of the tick succeeds and
leads there.  If the step executed anything but a halt, the word at the breakpoint is
executed next; if it executed a halt, nothing is.  A halt that leads to no breakpoint is
told of by the tick after it, and a step that fails by the tick itself. -/
theorem Reachable.breakpoint_stops (reachable : debugger.Reachable)
    (going : debugger.running = true) :
    (∀ address : Nat, debugger.tick.status = .stopped address ↔
      ∃ instruction, debugger.machine.step.1 = .ok instruction ∧
        debugger.machine.step.2.counter.val = address ∧
        debugger.breakpoints.contains address = true) ∧
    (∀ instruction, debugger.machine.step.1 = .ok instruction →
      debugger.breakpoints.contains debugger.machine.step.2.counter = true →
        debugger.tick.StoppedAt debugger.machine.step.2.counter ∧
          (instruction ≠ .plain .hlt →
            debugger.tick.InFrontOf debugger.machine.step.2.counter) ∧
          (instruction = .plain .hlt → debugger.tick.AtEnd)) ∧
    (debugger.machine.step.1 = .ok (.plain .hlt) →
      debugger.breakpoints.contains debugger.machine.step.2.counter = false →
        debugger.tick.running = true ∧ debugger.tick.AtEnd ∧
          debugger.tick.tick.running = false ∧
          debugger.tick.tick.status =
            .finished debugger.tick.machine.cycles debugger.tick.machine.ticks) ∧
    ∀ error, debugger.machine.state = .running → debugger.machine.step.1 = .error error →
      debugger.tick.running = false ∧ debugger.tick.AtEnd ∧
        debugger.tick.status = .failed error := by
  have machine := machine_tick_of_going going
  refine ⟨fun address => status_tick_eq_stopped_iff going, ?_, ?_, ?_⟩
  · intro instruction stepped breakpoint
    have state := reachable.machine.state_of_step_ok stepped
    rw [← machine] at state
    refine ⟨stoppedAt_tick going stepped breakpoint, fun notHalt => ?_, fun halt => ?_⟩
    · rw [← machine]
      exact (reachable.act .tick).inFrontOf (state.trans (if_neg notHalt))
    · exact atEnd_of_halted (state.trans (if_pos halt))
  · intro stepped free
    have halted := reachable.machine.state_of_step_ok stepped
    rw [← machine, if_pos rfl] at halted
    have stays : debugger.tick.running = true := by
      rw [tick_of_step_ok going (Prod.ext stepped rfl), free, if_neg Bool.false_ne_true]
      exact going
    refine ⟨stays, atEnd_of_halted halted, ?_, ?_⟩
    all_goals rw [tick_of_halted stays halted]
  · intro error running failed
    have halted := Machine.halted_of_step_error failed
    rw [← machine] at halted
    rw [tick_of_step_error going running (Prod.ext failed rfl)] at halted ⊢
    exact ⟨rfl, atEnd_of_halted halted, rfl⟩

/-- A standard debugger that was set going with one breakpoint. -/
theorem exists_going {program : Program} {first : Debugger {}}
    (started : start {} program = .ok first) (address : Nat) :
    ∃ debugger : Debugger {}, debugger.Reachable ∧ debugger.running = true ∧
      debugger.breakpoints = .insert address .empty ∧
      debugger.machine.Represents
        ((WordMachine.blank ⟨0, Geometry.valid_standard.mainWords_pos⟩).load program.words) := by
  obtain ⟨fresh, built, loaded, -⟩ := exists_of_start started
  obtain ⟨_, rfl⟩ := Machine.eq_fresh_of_build built
  have reachable := (Reachable.start started).act (.setBreakpoints (.insert address .empty))
  exact ⟨_, reachable.act .run, rfl, rfl,
    (Machine.represents_fresh Geometry.valid_standard).loadProgram loaded⟩

/-- An idle word leads to a stop in front of the halt behind it, the halt to one at the end. -/
theorem breakpoint_stops_halt :
    ∃ first second : Debugger {},
      first.Reachable ∧ first.tick.StoppedAt 63 ∧ first.tick.InFrontOf 63 ∧
      second.Reachable ∧ second.tick.StoppedAt 0 ∧ second.tick.AtEnd := by
  obtain ⟨_, firstStarted⟩ : ∃ first, start {} ⟨62, [0, 0xFF00000000], .empty⟩ = .ok first :=
    ⟨_, rfl⟩
  obtain ⟨_, secondStarted⟩ : ∃ first, start {} ⟨63, [0xFF00000000], .empty⟩ = .ok first :=
    ⟨_, rfl⟩
  obtain ⟨first, firstReachable, firstGoing, firstBreakpoints, firstMachine⟩ :=
    exists_going firstStarted 63
  obtain ⟨second, secondReachable, secondGoing, secondBreakpoints, secondMachine⟩ :=
    exists_going secondStarted 0
  have firstStepped : first.machine.step.1 = .ok (.plain .nop) := by
    rw [firstMachine.step.1]
    decide +kernel
  have firstCounter : first.machine.step.2.counter = 63 := by
    rw [firstMachine.step.2.counter]
    decide +kernel
  have secondStepped : second.machine.step.1 = .ok (.plain .hlt) := by
    rw [secondMachine.step.1]
    decide +kernel
  have secondCounter : second.machine.step.2.counter = 0 := by
    rw [secondMachine.step.2.counter]
    decide +kernel
  obtain ⟨firstStopped, inFront, -⟩ :=
    (firstReachable.breakpoint_stops firstGoing).2.1 _ firstStepped
      (by rw [firstCounter, firstBreakpoints]; rfl)
  obtain ⟨secondStopped, -, atEnd⟩ :=
    (secondReachable.breakpoint_stops secondGoing).2.1 _ secondStepped
      (by rw [secondCounter, secondBreakpoints]; rfl)
  rw [firstCounter] at firstStopped inFront
  rw [secondCounter] at secondStopped
  exact ⟨first, second, firstReachable, firstStopped, inFront (by decide), secondReachable,
    secondStopped, atEnd rfl⟩

/-- A debugger may tell of a stop at a breakpoint when the machine has halted. -/
theorem stopped_although_halted :
    ¬ ∀ (geometry : Geometry) (debugger : Debugger geometry), debugger.Reachable →
      debugger.running = true → ∀ address, debugger.tick.status = .stopped address →
        debugger.tick.machine.state = .running := by
  intro standsBefore
  obtain ⟨_, started⟩ : ∃ first, start {} ⟨63, [0xFF00000000], .empty⟩ = .ok first := ⟨_, rfl⟩
  obtain ⟨debugger, reachable, going, breakpoints, machine⟩ := exists_going started 0
  have stepped : debugger.machine.step.1 = .ok (.plain .hlt) := by
    rw [machine.step.1]
    decide +kernel
  have counter : debugger.machine.step.2.counter = 0 := by
    rw [machine.step.2.counter]
    decide +kernel
  have stopped := stoppedAt_tick going stepped (by rw [counter, breakpoints]; rfl)
  have running := standsBefore {} debugger reachable going _ stopped.status
  rw [machine_tick_of_going going, reachable.machine.state_of_step_ok stepped] at running
  cases running

end Debugger

end BitSerial
