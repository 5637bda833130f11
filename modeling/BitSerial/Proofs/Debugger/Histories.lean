import BitSerial.Debugger
import BitSerial.Proofs.Machine.Histories

/-!
# Debugger histories

A debugger handles its machine and never forgets its program.  So a reset always finds
a machine that loads the program again, and leaves it as it was at the start.
-/

namespace BitSerial

namespace Debugger

variable {geometry : Geometry} {first before after debugger : Debugger geometry}

/-- One operation of a debugger, or one thing done to its machine directly. -/
inductive Operates : Debugger geometry → Debugger geometry → Prop
  | step (before : Debugger geometry) : Operates before before.step
  | run (before : Debugger geometry) : Operates before before.run
  | tick (before : Debugger geometry) : Operates before before.tick
  | pause (before : Debugger geometry) : Operates before before.pause
  | toggleBreakpoint (before : Debugger geometry) : Operates before before.toggleBreakpoint
  | setBreakpoint (address : Nat) (before : Debugger geometry) :
      Operates before (before.setBreakpoint address).2
  | reset (before : Debugger geometry) : Operates before before.reset
  | scrollUp (before : Debugger geometry) : Operates before before.scrollUp
  | scrollDown (before : Debugger geometry) : Operates before before.scrollDown
  | machine {before : Debugger geometry} {machine : Machine geometry}
      (handles : before.machine.Handles machine) : Operates before { before with machine }

/-- Any number of operations one after the other. -/
abbrev Operated : Debugger geometry → Debugger geometry → Prop :=
  Relation.ReflTransGen Operates

/-- What an operation may do: handle the machine, with the program kept. -/
structure Onward (before after : Debugger geometry) : Prop where
  handled : before.machine.Handled after.machine
  program : after.program = before.program

theorem Onward.refl (debugger : Debugger geometry) : debugger.Onward debugger where
  handled := .refl
  program := rfl

theorem Onward.trans {middle : Debugger geometry} (front : before.Onward middle)
    (behind : middle.Onward after) : before.Onward after where
  handled := front.handled.trans behind.handled
  program := behind.program.trans front.program

theorem onward_step (debugger : Debugger geometry) : debugger.Onward debugger.step := by
  have handled := Relation.ReflTransGen.single (Machine.Handles.step debugger.machine)
  rw [step]
  split
  · exact ⟨.refl, rfl⟩
  · split
    · rename_i outcome
      rw [outcome] at handled
      exact ⟨handled, rfl⟩
    · rename_i outcome
      rw [outcome] at handled
      exact ⟨handled, rfl⟩

theorem onward_heed (debugger : Debugger geometry) : debugger.Onward debugger.heed := by
  rw [heed]
  split <;> exact ⟨.refl, rfl⟩

theorem onward_tick (debugger : Debugger geometry) : debugger.Onward debugger.tick := by
  rw [tick]
  split
  · split
    · exact ⟨.refl, rfl⟩
    · exact (onward_step debugger).trans (onward_heed debugger.step)
  · exact .refl debugger

theorem onward_toggleBreakpoint (debugger : Debugger geometry) :
    debugger.Onward debugger.toggleBreakpoint := by
  rw [toggleBreakpoint]
  split <;> exact ⟨.refl, rfl⟩

theorem onward_reset (debugger : Debugger geometry) : debugger.Onward debugger.reset := by
  have cleared := Relation.ReflTransGen.single (Machine.Handles.reset debugger.machine)
  rw [reset]
  split
  · rename_i tried
    exact ⟨cleared.tail (.loadProgram tried), rfl⟩
  · rename_i tried
    exact ⟨cleared.tail (.loadProgram tried), rfl⟩

theorem Operates.onward (operates : before.Operates after) : before.Onward after := by
  cases operates with
  | step => exact onward_step before
  | tick => exact onward_tick before
  | toggleBreakpoint => exact onward_toggleBreakpoint before
  | reset => exact onward_reset before
  | run | pause | setBreakpoint | scrollUp | scrollDown => exact ⟨.refl, rfl⟩
  | machine handles => exact ⟨.single handles, rfl⟩

theorem Operated.onward (operated : before.Operated after) : before.Onward after := by
  induction operated with
  | refl => exact .refl before
  | tail _ last ih => exact ih.trans last.onward

/-- A debugger starts with a built machine that loads its program. -/
theorem exists_of_start {program : Program} (started : start geometry program = .ok first) :
    ∃ fresh, Machine.build? geometry = .ok fresh ∧
      fresh.loadProgram program = (.ok (), first.machine) ∧ first.program = program := by
  rw [start] at started
  split at started
  · cases started
  · rename_i fresh built
    split at started
    · cases started
    · rename_i machine loaded
      cases started
      exact ⟨fresh, built, loaded, rfl⟩

/-- A reset leaves the machine that the debugger started with and has nothing to
complain of. -/
theorem Operated.reset_eq {program : Program} (started : start geometry program = .ok first)
    (operated : first.Operated debugger) :
    debugger.reset.status = .reset ∧ debugger.reset.machine = first.machine := by
  obtain ⟨fresh, built, loaded, programFirst⟩ := exists_of_start started
  obtain ⟨handled, programKept⟩ := operated.onward
  have handledFresh : fresh.Handled debugger.machine :=
    Relation.ReflTransGen.head (.loadProgram loaded) handled
  have reloaded :
      debugger.machine.reset.loadProgram debugger.program = (.ok (), first.machine) := by
    rw [handledFresh.reset_eq built, programKept, programFirst]
    exact loaded
  rw [reset, reloaded]
  exact ⟨rfl, rfl⟩

/-- Whatever was done to a machine since it was built, a reset makes it that machine
again.  Whatever was done to a debugger since it was started, a reset succeeds and
leaves the machine it started with. -/
theorem histories_end_in_reset :
    (∀ (geometry : Geometry) (fresh machine : Machine geometry),
      Machine.build? geometry = .ok fresh → fresh.Handled machine → machine.reset = fresh) ∧
    ∀ (geometry : Geometry) (program : Program) (first debugger : Debugger geometry),
      start geometry program = .ok first → first.Operated debugger →
        debugger.reset.status = .reset ∧ debugger.reset.machine = first.machine := by
  constructor
  · intro geometry fresh machine built handled
    exact handled.reset_eq built
  · intro geometry program first debugger started operated
    exact operated.reset_eq started

/-- A debugger is reset although its S register waits to inject a one and its first data
bank does not refresh, and so is its machine. -/
theorem histories_end_in_reset_disturbed :
    ∃ (fresh : Machine {}) (first debugger : Debugger {}),
      Machine.build? {} = .ok fresh ∧ start {} ⟨63, [0xF], .empty⟩ = .ok first ∧
      debugger.machine.registers.s.pending = some true ∧
      (debugger.machine.data.line 0).refresh = false ∧
      debugger.machine.reset = fresh ∧
      debugger.reset.status = .reset ∧ debugger.reset.machine = first.machine := by
  obtain ⟨first, started⟩ : ∃ first, start {} ⟨63, [0xF], .empty⟩ = .ok first := ⟨_, rfl⟩
  obtain ⟨fresh, built, loaded, -⟩ := exists_of_start started
  have scheduled := Machine.Handles.register .s (.schedule true) first.machine
  have unrefreshed := Machine.Handles.data (.setRefresh 0 false)
    { first.machine with
      registers := first.machine.registers.set .s (first.machine.registers.s.schedule true) }
  have handled : fresh.Handled _ :=
    ((Relation.ReflTransGen.single (.loadProgram loaded)).tail scheduled).tail unrefreshed
  have operated : first.Operated _ :=
    (Relation.ReflTransGen.single (.machine scheduled)).tail (.machine unrefreshed)
  refine ⟨fresh, first, _, built, started, rfl, ?_,
    histories_end_in_reset.1 {} fresh _ built handled,
    histories_end_in_reset.2 {} _ first _ started operated⟩
  exact congrArg DelayLine.refresh (Bank.line_setLine _ _ _)

end Debugger

end BitSerial
