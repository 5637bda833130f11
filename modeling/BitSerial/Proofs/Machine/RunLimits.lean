import BitSerial.Proofs.Machine.BoundedRuns

/-!
# Limits of runs

The limit of a bounded run is the sum of the cycle count and the bound.  If that is no
count, the run is not even begun.  So a machine that has executed anything cannot be given
the largest bound, and with every bound that it can be given a run does not end early.
-/

namespace BitSerial.Machine

variable {geometry : Geometry} {machine : Machine geometry} {maximum : UInt64}

theorem runLimited_eq_overflow_iff :
    (machine.runLimited maximum).1 = .error .overflow ↔
      countLimit ≤ machine.cycles.toNat + maximum.toNat := by
  constructor
  · intro failed
    by_contra fits
    obtain ⟨outcome, last, run, -⟩ := exists_runLimited (Nat.lt_of_not_le fits)
    rw [run] at failed
    cases outcome <;> cases failed
  · intro overflow
    rw [runLimited_of_overflow overflow]

/-- A run that does not fail goes to its limit unless the machine halts. -/
theorem eq_maximum_or_halted {total : UInt64}
    (ended : (machine.runLimited maximum).1 = .ok total) :
    total ≤ maximum ∧
      (total = maximum ∨ (machine.runLimited maximum).2.state = .halted) := by
  have fits : machine.cycles.toNat + maximum.toNat < countLimit := by
    by_contra overflow
    rw [runLimited_of_overflow (Nat.le_of_not_lt overflow)] at ended
    cases ended
  obtain ⟨outcome, last, run, -, ends⟩ := exists_runLimited fits
  rw [run] at ended ⊢
  cases outcome with
  | error error => cases ended
  | ok executed =>
      cases ended
      generalize isCount : total.toNat = count at ends
      cases ends with
      | stopped _ within reached =>
          subst isCount
          exact ⟨UInt64.le_iff_toNat_le.mpr within, reached.imp_left UInt64.toNat_inj.mp⟩

/-- Once a machine has executed something, the largest bound is too large. -/
theorem exists_overflow_iff :
    (∃ maximum, (machine.runLimited maximum).1 = .error .overflow) ↔ machine.cycles ≠ 0 := by
  simp only [runLimited_eq_overflow_iff, ne_eq, ← UInt64.toNat_inj, UInt64.toNat_zero]
  constructor
  · rintro ⟨maximum, overflow⟩ none
    rw [none, Nat.zero_add] at overflow
    exact Nat.not_lt_of_le overflow maximum.toNat_lt
  · intro some
    refine ⟨0xFFFFFFFFFFFFFFFF, ?_⟩
    have largest : (0xFFFFFFFFFFFFFFFF : UInt64).toNat + 1 = countLimit := rfl
    omega

/-- A run has no limit exactly if the sum of the cycle count and the bound is no count, which
can be the case as soon as an instruction was executed, and then the machine stays as it was.
A run that does not fail has executed as many instructions as it was allowed, or fewer and the
machine has halted. -/
theorem run_limits_exact (machine : Machine geometry) :
    (∀ maximum, (machine.runLimited maximum).1 = .error .overflow ↔
      countLimit ≤ machine.cycles.toNat + maximum.toNat) ∧
    (∀ maximum, (machine.runLimited maximum).1 = .error .overflow →
      (machine.runLimited maximum).2 = machine) ∧
    ((∃ maximum, (machine.runLimited maximum).1 = .error .overflow) ↔ machine.cycles ≠ 0) ∧
    ∀ maximum total, (machine.runLimited maximum).1 = .ok total →
      total ≤ maximum ∧
        (total = maximum ∨ (machine.runLimited maximum).2.state = .halted) := by
  refine ⟨fun _ => runLimited_eq_overflow_iff, ?_, exists_overflow_iff,
    fun _ _ => eq_maximum_or_halted⟩
  intro maximum failed
  rw [runLimited_of_overflow (runLimited_eq_overflow_iff.mp failed)]

/-- A machine that has executed one of two instructions, an idle one, and stands before the
halt. -/
theorem exists_before_halt :
    ∃ machine : Machine {}, machine.Reachable ∧ machine.state = .running ∧ machine.cycles = 1 ∧
      ∃ last, machine.run? 2 = some (.ok 1, last) := by
  obtain ⟨loaded, reachable, starts⟩ :=
    exists_represents_load [0x0000000000#40, 0xFF00000000#40] (by decide)
  have represents := starts.step.2
  have cycles : loaded.step.2.cycles = 1 := by
    rw [represents.cycles]
    decide +kernel
  obtain ⟨outcome, next⟩ := represents.runFor 2
  have halted : (loaded.step.2.runFor 2).2.state = .halted := by
    rw [next.running]
    decide +kernel
  have ended : (loaded.step.2.runFor 2).1 = .ok () := by
    rw [outcome]
    decide +kernel
  have counted : (loaded.step.2.runFor 2).2.cycles = 2 := by
    rw [next.cycles]
    decide +kernel
  refine ⟨loaded.step.2, reachable.step, ?_, cycles, (loaded.step.2.runFor 2).2, ?_⟩
  · rw [represents.running]
    decide +kernel
  · rw [run?]
    dsimp only
    rw [halted, ended, counted, cycles]
    rfl

/-- Before the halt the largest bound is too large, and the one below it is not.  Without a
bound the machine executes the halt. -/
theorem run_limits_exact_largest :
    ∃ machine last : Machine {}, machine.Reachable ∧ machine.state = .running ∧
      machine.runLimited 0xFFFFFFFFFFFFFFFF = (.error .overflow, machine) ∧
      (machine.runLimited 0xFFFFFFFFFFFFFFFE).1 ≠ .error .overflow ∧
      machine.run? 2 = some (.ok 1, last) := by
  obtain ⟨machine, reachable, running, cycles, last, run⟩ := exists_before_halt
  obtain ⟨limits, stays, -, -⟩ := machine.run_limits_exact
  have overflow : (machine.runLimited 0xFFFFFFFFFFFFFFFF).1 = .error .overflow :=
    (limits _).mpr (by rw [cycles]; decide)
  refine ⟨machine, last, reachable, running, Prod.ext overflow (stays _ overflow), ?_, run⟩
  exact fun below => absurd ((limits _).mp below) (by rw [cycles]; decide)

/-- The count to stop at can be out of reach for a machine that runs. -/
theorem overflowed_before_halt :
    ¬∀ (geometry : Geometry) (machine : Machine geometry), machine.Reachable →
      ∀ maximum : UInt64, (machine.runLimited maximum).1 ≠ .error .overflow ∧
        ∀ total, (machine.runLimited maximum).1 = .ok total →
          total = maximum ∨ (machine.runLimited maximum).2.state = .halted := by
  intro reaches
  obtain ⟨machine, reachable, -, cycles, -⟩ := exists_before_halt
  have overflow : countLimit ≤
      machine.cycles.toNat + (0xFFFFFFFFFFFFFFFF : UInt64).toNat := by
    rw [cycles]
    decide
  exact (reaches {} machine reachable _).1 (runLimited_eq_overflow_iff.mpr overflow)

end BitSerial.Machine
