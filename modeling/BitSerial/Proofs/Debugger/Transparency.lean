import BitSerial.Proofs.Debugger.Histories
import BitSerial.Proofs.Machine.Faults
import BitSerial.Proofs.Machine.Stepping
import Mathlib.Logic.Function.Iterate

/-!
# Watching changes nothing

A debugger's machine is the loaded machine after some number of steps, whatever was done
with the debugger: steps are taken by asking for one and by ticks while it runs, and only
while the machine does.  A run that ticks on goes to the first place behind its start
where the machine has halted or stands in front of a breakpoint, and no further.
-/

namespace BitSerial.Debugger

variable {geometry : Geometry} {debugger : Debugger geometry}

/-! ## Actions -/

/-- What a user does with a debugger, short of a reset. -/
inductive Action
  | step
  | tick
  | run
  | pause
  | toggleBreakpoint
  /-- Exchange all breakpoints. -/
  | setBreakpoints (breakpoints : Breakpoints)
  | scrollUp
  | scrollDown
  /-- Look at so many rows of main memory. -/
  | viewMemory (height : Nat)

/-- The debugger after an action.  Looking leaves it as it is. -/
def act (debugger : Debugger geometry) : Action → Debugger geometry
  | .step => debugger.step
  | .tick => debugger.tick
  | .run => debugger.run
  | .pause => debugger.pause
  | .toggleBreakpoint => debugger.toggleBreakpoint
  | .setBreakpoints breakpoints => { debugger with breakpoints }
  | .scrollUp => debugger.scrollUp
  | .scrollDown => debugger.scrollDown
  | .viewMemory _ => debugger

/-- The debugger after some actions. -/
def perform (debugger : Debugger geometry) : List Action → Debugger geometry
  | [] => debugger
  | action :: rest => (debugger.act action).perform rest

/-- Whether an action asks for a step of the machine. -/
def asks (debugger : Debugger geometry) : Action → Bool
  | .step => true
  | .tick => debugger.running
  | _ => false

/-- How many of some actions ask for a step while the machine runs. -/
def countSteps (debugger : Debugger geometry) : List Action → Nat
  | [] => 0
  | action :: rest =>
      (debugger.asks action && debugger.machine.isRunning).toNat +
        (debugger.act action).countSteps rest

/-! ## What an action does to the machine -/

theorem machine_heed (debugger : Debugger geometry) : debugger.heed.machine = debugger.machine := by
  rw [heed]
  split <;> rfl

theorem machine_toggleBreakpoint (debugger : Debugger geometry) :
    debugger.toggleBreakpoint.machine = debugger.machine := by
  rw [toggleBreakpoint]
  split <;> rfl

/-- A step of the debugger is a step of its machine. -/
theorem machine_step (debugger : Debugger geometry) :
    debugger.step.machine = debugger.machine.step.2 := by
  rw [step]
  cases state : debugger.machine.state with
  | halted => rw [Machine.step_of_halted state]
  | running =>
      dsimp only
      generalize debugger.machine.step = stepped
      rcases stepped with ⟨outcome, after⟩
      cases outcome <;> rfl

theorem machine_tick (debugger : Debugger geometry) :
    debugger.tick.machine =
      if debugger.running then debugger.machine.step.2 else debugger.machine := by
  rw [tick]
  cases debugger.running with
  | false => rfl
  | true =>
      rw [if_pos rfl, if_pos rfl]
      cases state : debugger.machine.state with
      | halted => exact congrArg Prod.snd (Machine.step_of_halted state).symm
      | running => exact (machine_heed debugger.step).trans (machine_step debugger)

/-- An action steps the machine if it asks for that and otherwise leaves it alone. -/
theorem machine_act (debugger : Debugger geometry) (action : Action) :
    (debugger.act action).machine =
      if debugger.asks action then debugger.machine.step.2 else debugger.machine := by
  cases action with
  | step => exact machine_step debugger
  | tick => exact machine_tick debugger
  | toggleBreakpoint => exact machine_toggleBreakpoint debugger
  | run | pause | setBreakpoints | scrollUp | scrollDown | viewMemory => rfl

/-- A machine that has halted is stepped in vain, so only the steps that find it running
count. -/
theorem machine_perform (debugger : Debugger geometry) (actions : List Action) :
    (debugger.perform actions).machine =
      debugger.machine.stepped (debugger.countSteps actions) := by
  induction actions generalizing debugger with
  | nil => rfl
  | cons action rest ih =>
      rw [perform, countSteps, ih, machine_act]
      cases debugger.asks action with
      | false => rw [Bool.false_and, Bool.toNat_false, Nat.zero_add, if_neg Bool.false_ne_true]
      | true =>
          rw [Bool.true_and, if_pos rfl, Machine.isRunning]
          cases state : debugger.machine.state with
          | running =>
              rw [Machine.stepped_step, Nat.add_comm]
              rfl
          | halted =>
              rw [Machine.step_of_halted state]
              exact congrArg debugger.machine.stepped (Nat.zero_add _).symm

/-! ## Runs -/

/-- Whether a run goes no further: the machine has halted or stands in front of a
breakpoint. -/
def Rests (breakpoints : Breakpoints) (machine : Machine geometry) : Prop :=
  machine.state = .halted ∨ breakpoints.contains machine.counter = true

/-- How many steps a run takes: none on a halted machine, and on any other at least one
and as many as it takes to come to rest. -/
inductive RunsFor (breakpoints : Breakpoints) (machine : Machine geometry) : Nat → Prop
  | halted (halted : machine.state = .halted) : RunsFor breakpoints machine 0
  | rests {count : Nat} (running : machine.state = .running)
      (rests : Rests breakpoints (machine.stepped (count + 1)))
      (first : ∀ earlier < count, ¬Rests breakpoints (machine.stepped (earlier + 1))) :
      RunsFor breakpoints machine (count + 1)

/-- A debugger that ticks on, so many steps behind its start. -/
structure Going (start : Debugger geometry) (count : Nat) (debugger : Debugger geometry) :
    Prop where
  machine : debugger.machine = start.machine.stepped count
  breakpoints : debugger.breakpoints = start.breakpoints
  running : debugger.running = true

/-- A debugger that will not step its machine any more. -/
structure Resting (last : Machine geometry) (debugger : Debugger geometry) : Prop where
  machine : debugger.machine = last
  rests : debugger.running = false ∨ last.state = .halted

theorem breakpoints_step (debugger : Debugger geometry) :
    debugger.step.breakpoints = debugger.breakpoints := by
  rw [step]
  split
  · rfl
  · split <;> rfl

theorem running_step (running : debugger.running = true)
    (going : debugger.machine.step.2.state = .running) : debugger.step.running = true := by
  rw [step]
  cases state : debugger.machine.state with
  | halted =>
      rw [Machine.step_of_halted state, state] at going
      cases going
  | running =>
      have succeeded (error) : debugger.machine.step.1 ≠ .error error := by
        intro failed
        rw [Machine.halted_of_step_error failed] at going
        cases going
      dsimp only
      generalize debugger.machine.step = stepped at succeeded
      rcases stepped with ⟨outcome, after⟩
      cases outcome with
      | ok instruction => exact running
      | error error => exact absurd rfl (succeeded error)

/-- A tick of a debugger that goes is a step, and it goes on unless the machine has come
to rest. -/
theorem Going.tick {start : Debugger geometry} {count : Nat} (going : start.Going count debugger)
    (running : debugger.machine.state = .running)
    (onward : ¬Rests start.breakpoints (start.machine.stepped (count + 1))) :
    start.Going (count + 1) debugger.tick := by
  have machine : debugger.step.machine = start.machine.stepped (count + 1) := by
    rw [machine_step, going.machine]
    rfl
  have breakpoints := (breakpoints_step debugger).trans going.breakpoints
  obtain ⟨active, free⟩ := not_or.mp onward
  have stays : debugger.step.running = true := by
    apply running_step going.running
    rw [← machine_step, machine]
    cases state : (start.machine.stepped (count + 1)).state with
    | halted => exact absurd state active
    | running => rfl
  have ticked : debugger.tick = debugger.step := by
    rw [Debugger.tick, if_pos going.running, running]
    dsimp only
    rw [heed, breakpoints, machine, stays, Bool.true_and, if_neg free]
  rw [ticked]
  exact ⟨machine, breakpoints, stays⟩

/-- When the machine has come to rest, so has the debugger. -/
theorem Going.resting_tick {start : Debugger geometry} {count : Nat}
    (going : start.Going count debugger) (running : debugger.machine.state = .running)
    (rests : Rests start.breakpoints (start.machine.stepped (count + 1))) :
    Resting (start.machine.stepped (count + 1)) debugger.tick := by
  have machine : debugger.step.machine = start.machine.stepped (count + 1) := by
    rw [machine_step, going.machine]
    rfl
  have ticked : debugger.tick = debugger.step.heed := by
    rw [Debugger.tick, if_pos going.running, running]
  rw [ticked]
  refine ⟨(machine_heed _).trans machine, ?_⟩
  rcases rests with halted | breakpoint
  · exact .inr halted
  · left
    rw [heed, breakpoints_step, going.breakpoints, machine, breakpoint, Bool.and_true]
    split
    · rfl
    · rename_i stopped
      exact Bool.eq_false_iff.mpr stopped

/-- At rest, the next tick ends the run and leaves the machine alone. -/
theorem Resting.tick {last : Machine geometry} (resting : Resting last debugger) :
    debugger.tick.machine = last ∧ debugger.tick.running = false := by
  obtain ⟨rfl, rests⟩ := resting
  rw [Debugger.tick]
  cases running : debugger.running with
  | false => exact ⟨rfl, running⟩
  | true =>
      have halted := rests.resolve_left fun stopped => Bool.noConfusion (running.symm.trans stopped)
      rw [if_pos rfl, halted]
      exact ⟨rfl, rfl⟩

theorem Resting.ticks {last : Machine geometry} (resting : Resting last debugger) (count : Nat) :
    (Debugger.tick^[count + 1] debugger).machine = last ∧
      (Debugger.tick^[count + 1] debugger).running = false := by
  induction count with
  | zero => exact resting.tick
  | succ count ih =>
      rw [Function.iterate_succ_apply']
      exact Resting.tick ⟨ih.1, .inl ih.2⟩

/-- A machine that has not come to rest still runs. -/
theorem Going.state {start : Debugger geometry} {count : Nat} (going : start.Going count debugger)
    (running : start.machine.state = .running)
    (onward : ∀ earlier < count,
      ¬Rests start.breakpoints (start.machine.stepped (earlier + 1))) :
    debugger.machine.state = .running := by
  rw [going.machine]
  cases count with
  | zero => exact running
  | succ count =>
      have active := (not_or.mp (onward count (Nat.lt_succ_self count))).1
      cases state : (start.machine.stepped (count + 1)).state with
      | halted => exact absurd state active
      | running => rfl

/-- As long as the machine does not come to rest, neither does the debugger. -/
theorem going_ticks (running : debugger.machine.state = .running) {count : Nat}
    (onward : ∀ earlier < count,
      ¬Rests debugger.breakpoints (debugger.machine.stepped (earlier + 1))) :
    debugger.Going count (tick^[count] debugger.run) := by
  induction count with
  | zero => exact ⟨rfl, rfl, rfl⟩
  | succ count ih =>
      have before := fun earlier less => onward earlier (Nat.lt_succ_of_lt less)
      have going := ih before
      rw [Function.iterate_succ_apply']
      exact going.tick (going.state running before) (onward count (Nat.lt_succ_self count))

/-- At the end of its run a debugger is at rest. -/
theorem RunsFor.resting {count : Nat}
    (runs : RunsFor debugger.breakpoints debugger.machine count) :
    Resting (debugger.machine.stepped count) (tick^[count] debugger.run) := by
  cases runs with
  | halted halted => exact ⟨rfl, .inr halted⟩
  | @rests count running rests first =>
      have going := going_ticks running first
      rw [Function.iterate_succ_apply']
      exact going.resting_tick (going.state running first) rests

theorem RunsFor.going {count : Nat} (runs : RunsFor debugger.breakpoints debugger.machine count)
    {earlier : Nat} (less : earlier < count) :
    debugger.Going earlier (tick^[earlier] debugger.run) := by
  cases runs with
  | halted => exact absurd less (Nat.not_lt_zero earlier)
  | rests running _ first =>
      exact going_ticks running fun before lessBefore =>
        first before (Nat.lt_of_lt_of_le lessBefore (Nat.le_of_lt_succ less))

/-- A run takes its steps, one a tick, and then no more. -/
theorem RunsFor.machine_ticks {count : Nat}
    (runs : RunsFor debugger.breakpoints debugger.machine count) (ticks : Nat) :
    (tick^[ticks] debugger.run).machine = debugger.machine.stepped (min ticks count) := by
  rcases Nat.lt_trichotomy ticks count with less | rfl | greater
  · rw [Nat.min_eq_left (Nat.le_of_lt less)]
    exact (runs.going less).machine
  · rw [Nat.min_self]
    exact runs.resting.machine
  · obtain ⟨more, rfl⟩ := Nat.exists_eq_add_of_lt greater
    rw [Nat.min_eq_right (Nat.le_of_lt greater), Nat.add_assoc, Nat.add_comm,
      Function.iterate_add_apply]
    exact (runs.resting.ticks more).1

theorem RunsFor.running_ticks {count : Nat}
    (runs : RunsFor debugger.breakpoints debugger.machine count) {ticks : Nat}
    (greater : count < ticks) : (tick^[ticks] debugger.run).running = false := by
  obtain ⟨more, rfl⟩ := Nat.exists_eq_add_of_lt greater
  rw [Nat.add_assoc, Nat.add_comm, Function.iterate_add_apply]
  exact (runs.resting.ticks more).2

/-- A run that would take no number of steps goes on. -/
theorem going_of_forall_not_runsFor
    (endless : ∀ count, ¬RunsFor debugger.breakpoints debugger.machine count) (ticks : Nat) :
    debugger.Going ticks (tick^[ticks] debugger.run) := by
  have running : debugger.machine.state = .running := by
    cases state : debugger.machine.state with
    | halted => exact absurd (RunsFor.halted state) (endless 0)
    | running => rfl
  refine going_ticks running ?_
  -- The least place of rest would be where the run ends.
  rintro earlier -
  induction earlier using Nat.strong_induction_on with
  | h earlier ih => exact fun rests => endless (earlier + 1) (.rests running rests ih)

/-! ## Debuggers -/

/-- Whatever is done with a debugger, its machine is the loaded machine after the steps
that were asked for while it ran.  A run from there takes a step a tick until the machine
comes to rest, and has ended one tick later; if the machine never comes to rest it goes on
for ever. -/
theorem transparent {program : Program} {first : Debugger geometry}
    (started : start geometry program = .ok first) (actions : List Action) :
    (∃ fresh loaded, Machine.build? geometry = .ok fresh ∧
      fresh.loadProgram program = (.ok (), loaded) ∧
      (first.perform actions).machine = loaded.stepped (first.countSteps actions)) ∧
    (∀ count,
      RunsFor (first.perform actions).breakpoints (first.perform actions).machine count →
        ∀ ticks,
          (tick^[ticks] (first.perform actions).run).machine =
            (first.perform actions).machine.stepped (min ticks count) ∧
          (ticks < count → (tick^[ticks] (first.perform actions).run).running = true) ∧
          (count < ticks → (tick^[ticks] (first.perform actions).run).running = false)) ∧
    ((∀ count,
      ¬RunsFor (first.perform actions).breakpoints (first.perform actions).machine count) →
        ∀ ticks,
          (tick^[ticks] (first.perform actions).run).machine =
            (first.perform actions).machine.stepped ticks ∧
          (tick^[ticks] (first.perform actions).run).running = true) := by
  refine ⟨?_, ?_, ?_⟩
  · obtain ⟨fresh, built, loaded, -⟩ := exists_of_start started
    exact ⟨fresh, first.machine, built, loaded, machine_perform first actions⟩
  · intro count runs ticks
    exact ⟨runs.machine_ticks ticks, fun less => (runs.going less).running, runs.running_ticks⟩
  · intro endless ticks
    have going := going_of_forall_not_runsFor endless ticks
    exact ⟨going.machine, going.running⟩

/-- A run that starts on a breakpoint steps over it and stops in front of the next one. -/
theorem transparent_between_breakpoints :
    ∃ first debugger : Debugger {},
      start {} ⟨60, [0, 0, 0, 0xFF00000000], .empty⟩ = .ok first ∧
      debugger = first.perform
        [.step, .toggleBreakpoint, .setBreakpoints (.insert 63 (.insert 61 .empty))] ∧
      debugger.machine = first.machine.stepped 1 ∧ debugger.machine.counter = 61 ∧
      (tick^[2] debugger.run).machine = debugger.machine.stepped 2 ∧
      (tick^[3] debugger.run).machine = debugger.machine.stepped 2 ∧
      (tick^[3] debugger.run).running = false := by
  obtain ⟨first, started⟩ : ∃ first : Debugger {},
      start {} ⟨60, [0, 0, 0, 0xFF00000000], .empty⟩ = .ok first := ⟨_, rfl⟩
  obtain ⟨fresh, built, loaded, -⟩ := exists_of_start started
  obtain ⟨_, rfl⟩ := Machine.eq_fresh_of_build built
  have stepped := ((Machine.represents_fresh Geometry.valid_standard).loadProgram loaded).step.2
  have machine : (first.perform [.step, .toggleBreakpoint,
      .setBreakpoints (.insert 63 (.insert 61 .empty))]).machine = first.machine.step.2 :=
    (machine_toggleBreakpoint first.step).trans (machine_step first)
  have runsFor : RunsFor (.insert 63 (.insert 61 .empty)) first.machine.step.2 2 := by
    refine .rests (stepped.running.trans (by decide +kernel)) ?_ ?_
    · right
      rw [Machine.stepped, Machine.stepped, Machine.stepped, stepped.step.2.step.2.counter]
      decide +kernel
    · intro earlier less
      obtain rfl := Nat.lt_one_iff.mp less
      rw [Rests, Machine.stepped, Machine.stepped, stepped.step.2.counter,
        stepped.step.2.running]
      decide +kernel
  obtain ⟨-, runs, -⟩ := transparent started
    [.step, .toggleBreakpoint, .setBreakpoints (.insert 63 (.insert 61 .empty))]
  rw [machine] at runs
  refine ⟨first, _, started, rfl, machine, ?_, ?_, ?_, ?_⟩
  · rw [machine, stepped.counter]
    decide +kernel
  · rw [machine]
    exact (runs 2 runsFor 2).1
  · rw [machine]
    exact (runs 2 runsFor 3).1
  · exact (runs 2 runsFor 3).2.2 (Nat.lt_succ_self 2)

end BitSerial.Debugger
