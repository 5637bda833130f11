import BitSerial.Proofs.Machine.ExactTiming
import BitSerial.Proofs.Machine.Faults
import BitSerial.Proofs.Machine.Stepping

/-!
# Bounded runs

A run that may take so many steps takes them one by one until it has taken them all, the
machine has halted or a step fails.  So two runs one after the other are one run, and a
run without a bound is any run that may go on long enough.  How many instructions a run
has executed is read off the cycle count, which a step that fails leaves alone.
-/

namespace BitSerial.Machine

variable {geometry : Geometry} {machine after : Machine geometry} {count : Nat}

/-! ## Steps that execute -/

/-- So many steps of a machine all execute an instruction. -/
def Executes (machine : Machine geometry) (count : Nat) : Prop :=
  ∀ earlier < count, ∃ instruction, (machine.stepped earlier).step.1 = .ok instruction

theorem executes_zero (machine : Machine geometry) : machine.Executes 0 :=
  fun _ before => absurd before (Nat.not_lt_zero _)

theorem Executes.succ (executes : machine.Executes count) {instruction : Instruction}
    (next : (machine.stepped count).step.1 = .ok instruction) : machine.Executes (count + 1) := by
  intro earlier before
  rcases Nat.lt_succ_iff_lt_or_eq.mp before with less | rfl
  · exact executes earlier less
  · exact ⟨instruction, next⟩

theorem Executes.add {more : Nat} (executes : machine.Executes count)
    (goesOn : (machine.stepped count).Executes more) : machine.Executes (count + more) := by
  intro earlier before
  rcases Nat.lt_or_ge earlier count with less | ge
  · exact executes earlier less
  · obtain ⟨later, rfl⟩ := Nat.exists_eq_add_of_le ge
    rw [← stepped_add]
    exact goesOn later (Nat.lt_of_add_lt_add_left before)

theorem Reachable.stepped (reachable : machine.Reachable) (count : Nat) :
    (machine.stepped count).Reachable := by
  induction count with
  | zero => exact reachable
  | succ count ih => exact ih.step

theorem cycles_step {instruction : Instruction}
    (stepped : machine.step = (.ok instruction, after)) :
    after.cycles = machine.cycles + 1 := by
  obtain ⟨flow, executed, outcome, rfl⟩ := exists_of_step stepped
  have kept := cycles_execute instruction machine.fetch.2
  rw [outcome] at kept
  exact congrArg (· + 1) kept

theorem toNat_cycles_step {instruction : Instruction} (fits : machine.cycles.toNat + 1 < countLimit)
    (stepped : machine.step = (.ok instruction, after)) :
    after.cycles.toNat = machine.cycles.toNat + 1 := by
  rw [cycles_step stepped, UInt64.toNat_add]
  exact Nat.mod_eq_of_lt fits

/-- Every step that executes is counted. -/
theorem Executes.cycles (executes : machine.Executes count)
    (fits : machine.cycles.toNat + count < countLimit) :
    (machine.stepped count).cycles.toNat = machine.cycles.toNat + count := by
  induction count with
  | zero => rfl
  | succ count ih =>
      obtain ⟨instruction, next⟩ := executes count (Nat.lt_succ_self count)
      have before := ih (fun earlier less => executes earlier (Nat.lt_succ_of_lt less)) (by omega)
      have counted : (machine.stepped (count + 1)).cycles.toNat =
          (machine.stepped count).cycles.toNat + 1 :=
        toNat_cycles_step (by omega) (Prod.ext next rfl)
      rw [counted, before, Nat.add_assoc]

/-! ## Runs taken apart -/

theorem runFor_one (machine : Machine geometry) (running : machine.state = .running) :
    machine.runFor 1 = (machine.step.1.map fun _ => (), machine.step.2) := by
  rw [runFor, running]
  dsimp only
  generalize machine.step = next
  rcases next with ⟨_ | _, after⟩ <;> rfl

/-- A run goes on where a shorter one stopped, if no step of that failed. -/
theorem runFor_add (first second : Nat) (machine : Machine geometry) :
    machine.runFor (first + second) =
      match machine.runFor first with
      | (.ok _, after) => after.runFor second
      | (.error error, after) => (.error error, after) := by
  induction first generalizing machine with
  | zero => rw [Nat.zero_add, runFor]
  | succ first ih =>
      rw [Nat.succ_add, runFor, runFor]
      cases state : machine.state with
      | halted => exact (runFor_of_halted state second).symm
      | running =>
          dsimp only
          generalize machine.step = next
          rcases next with ⟨error | instruction, after⟩
          · rfl
          · exact ih after

/-- Behind the end of a run there is nothing more to run. -/
theorem runFor_of_le {enough more : Nat} (halted : (machine.runFor enough).2.state = .halted)
    (le : enough ≤ more) : machine.runFor more = machine.runFor enough := by
  obtain ⟨rest, rfl⟩ := Nat.exists_eq_add_of_le le
  rw [runFor_add]
  generalize machine.runFor enough = run at halted
  rcases run with ⟨error | nothing, after⟩
  · rfl
  · exact runFor_of_halted halted rest

/-- How a run ends that may take so many steps. -/
inductive Ends (machine : Machine geometry) (allowed : Nat) :
    Except StepError Nat × Machine geometry → Prop
  /-- It has executed an instruction with each of them, or the machine has halted. -/
  | stopped {count : Nat} (executes : machine.Executes count) (within : count ≤ allowed)
      (last : count = allowed ∨ (machine.stepped count).state = .halted) :
      Ends machine allowed (.ok count, machine.stepped count)
  /-- After some of them the next one fails, which halts the machine. -/
  | failed {count : Nat} {error : StepError} (executes : machine.Executes count)
      (within : count < allowed) (running : (machine.stepped count).state = .running)
      (failed : (machine.stepped count).step.1 = .error error) :
      Ends machine allowed (.error error, machine.stepped (count + 1))

/-- Every run ends in one of these ways. -/
theorem exists_ends (machine : Machine geometry) (allowed : Nat) :
    ∃ outcome last, machine.runFor allowed = (outcome.map fun _ => (), last) ∧
      machine.Ends allowed (outcome, last) := by
  induction allowed with
  | zero =>
      exact ⟨.ok 0, machine, rfl,
        .stopped (executes_zero machine) (Nat.le_refl 0) (.inl rfl)⟩
  | succ allowed ih =>
      obtain ⟨outcome, last, split, ends⟩ := ih
      rw [runFor_add, split]
      cases ends with
      | failed executes within running failed =>
          exact ⟨_, _, rfl, .failed executes (Nat.lt_succ_of_lt within) running failed⟩
      | @stopped count executes within reached =>
          cases state : (machine.stepped count).state with
          | halted =>
              exact ⟨.ok count, _, runFor_of_halted state 1,
                .stopped executes (Nat.le_succ_of_le within) (.inr state)⟩
          | running =>
              obtain rfl : count = allowed := reached.resolve_right (by simp [state])
              cases next : (machine.stepped count).step.1 with
              | ok instruction =>
                  refine ⟨.ok (count + 1), _, ?_,
                    .stopped (executes.succ next) (Nat.le_refl _) (.inl rfl)⟩
                  exact (runFor_one _ state).trans (by rw [next]; rfl)
              | error error =>
                  refine ⟨.error error, _, ?_,
                    .failed executes (Nat.lt_succ_self count) state next⟩
                  exact (runFor_one _ state).trans (by rw [next]; rfl)

/-- So many steps of a machine end in its halt, or the next one fails. -/
def Finishes (machine : Machine geometry) (count : Nat) : Prop :=
  (machine.stepped count).state = .halted ∨
    ∃ error, (machine.stepped count).step.1 = .error error

/-- One step more than that is enough to halt. -/
theorem Finishes.halted (finishes : machine.Finishes count) :
    (machine.runFor (count + 1)).2.state = .halted := by
  have refused : ∃ error, (machine.stepped count).step.1 = .error error := by
    rcases finishes with halted | failed
    · exact ⟨_, congrArg Prod.fst (step_of_halted halted)⟩
    · exact failed
  obtain ⟨outcome, last, split, ends⟩ := machine.exists_ends (count + 1)
  rw [split]
  cases ends with
  | failed _ _ _ failed => exact halted_of_step_error failed
  | stopped executes _ reached =>
      rcases reached with rfl | halted
      · obtain ⟨error, refused⟩ := refused
        obtain ⟨instruction, next⟩ := executes count (Nat.lt_succ_self count)
        cases next.symm.trans refused
      · exact halted

/-! ## Runs by the cycle count -/

/-- A run with a limit looks at the cycle count before each step. -/
theorem runFor_limit {limit : Nat} (fits : limit < countLimit) (machine : Machine geometry) :
    machine.runFor (limit - machine.cycles.toNat) =
      if machine.state = .running ∧ machine.cycles.toNat < limit then
        match machine.step with
        | (.ok _, after) => after.runFor (limit - after.cycles.toNat)
        | (.error error, after) => (.error error, after)
      else
        (.ok (), machine) := by
  cases state : machine.state with
  | halted => rw [if_neg (by simp), runFor_of_halted state]
  | running =>
      by_cases below : machine.cycles.toNat < limit
      · have positive : limit - machine.cycles.toNat =
            limit - (machine.cycles.toNat + 1) + 1 := by omega
        rw [if_pos ⟨rfl, below⟩, positive, runFor, state]
        dsimp only
        rcases next : machine.step with ⟨error | instruction, after⟩
        · rfl
        · dsimp only
          rw [toNat_cycles_step (by omega) next]
      · have spent : limit - machine.cycles.toNat = 0 := by omega
        rw [if_neg (by simp [below]), spent, runFor]

/-- The loop of a run with a limit on the cycle count: while the machine runs and its count is
below the limit it takes a step, and the first step that fails ends it. -/
inductive RunsTo (limit : Nat) :
    Machine geometry → Except StepError Unit × Machine geometry → Prop
  | ended {machine : Machine geometry}
      (done : ¬(machine.state = .running ∧ machine.cycles.toNat < limit)) :
      RunsTo limit machine (.ok (), machine)
  | failed {machine after : Machine geometry} {error : StepError}
      (allowed : machine.state = .running ∧ machine.cycles.toNat < limit)
      (failed : machine.step = (.error error, after)) : RunsTo limit machine (.error error, after)
  | step {machine after : Machine geometry} {instruction : Instruction}
      {result : Except StepError Unit × Machine geometry}
      (allowed : machine.state = .running ∧ machine.cycles.toNat < limit)
      (executed : machine.step = (.ok instruction, after)) (rest : RunsTo limit after result) :
      RunsTo limit machine result

theorem runsTo_runFor {limit : Nat} (fits : limit < countLimit) (machine : Machine geometry) :
    RunsTo limit machine (machine.runFor (limit - machine.cycles.toNat)) := by
  induction left : limit - machine.cycles.toNat generalizing machine with
  | zero => exact .ended fun allowed => by omega
  | succ rest ih =>
      rw [← left, runFor_limit fits]
      split
      · rename_i allowed
        rcases next : machine.step with ⟨error | instruction, after⟩
        · exact .failed allowed next
        · have counted : after.cycles.toNat = machine.cycles.toNat + 1 :=
            toNat_cycles_step (by omega) next
          have fewer : limit - after.cycles.toNat = rest := by omega
          dsimp only
          rw [fewer]
          exact .step allowed next (ih after fewer)
      · rename_i done
        exact .ended done

/-- Taking as many steps as the count is away from the limit is that loop. -/
theorem runsTo_iff {limit : Nat} (fits : limit < countLimit) {machine : Machine geometry}
    {result : Except StepError Unit × Machine geometry} :
    RunsTo limit machine result ↔ result = machine.runFor (limit - machine.cycles.toNat) := by
  constructor
  · intro runs
    induction runs with
    | ended done => rw [runFor_limit fits, if_neg done]
    | failed allowed failed => rw [runFor_limit fits, if_pos allowed, failed]
    | step allowed executed _ ih => rw [runFor_limit fits, if_pos allowed, executed, ih]
  · rintro rfl
    exact runsTo_runFor fits machine

theorem runLimited_eq {maximum : UInt64}
    (fits : machine.cycles.toNat + maximum.toNat < countLimit) (outcome : Except StepError Nat)
    (split : machine.runFor maximum.toNat = (outcome.map fun _ => (), after)) :
    machine.runLimited maximum =
      ((outcome.map fun _ => after.cycles - machine.cycles).mapError .step, after) := by
  rw [runLimited_of_fits fits, split]
  cases outcome <;> rfl

/-- A run that does not fail says how many instructions it executed. -/
theorem Executes.runLimited (executes : machine.Executes count) {maximum : UInt64}
    (fits : machine.cycles.toNat + maximum.toNat < countLimit) (within : count ≤ maximum.toNat)
    (split : machine.runFor maximum.toNat = (.ok (), machine.stepped count)) :
    ∃ total, machine.runLimited maximum = (.ok total, machine.stepped count) ∧
      total.toNat = count := by
  have counted := executes.cycles (by omega)
  refine ⟨_, runLimited_eq fits (.ok count) split, ?_⟩
  rw [UInt64.toNat_sub_of_le _ _ (UInt64.le_iff_toNat_le.mpr (by omega)), counted,
    Nat.add_sub_cancel_left]

/-- A run with a bound goes through the loop to the sum of the cycle count and the bound, and
says how many instructions it executed, or which error ended it. -/
theorem exists_runLimited {maximum : UInt64}
    (fits : machine.cycles.toNat + maximum.toNat < countLimit) :
    ∃ (outcome : Except StepError UInt64) (last : Machine geometry),
      machine.runLimited maximum = (outcome.mapError .step, last) ∧
      (∀ result, machine.RunsTo (machine.cycles.toNat + maximum.toNat) result ↔
        result = (outcome.map fun _ => (), last)) ∧
      machine.Ends maximum.toNat (outcome.map UInt64.toNat, last) := by
  obtain ⟨outcome, last, split, ends⟩ := machine.exists_ends maximum.toNat
  have loop (result : Except StepError Unit × Machine geometry) :
      machine.RunsTo (machine.cycles.toNat + maximum.toNat) result ↔
        result = (outcome.map fun _ => (), last) := by
    rw [runsTo_iff fits, Nat.add_sub_cancel_left, split]
  cases ends with
  | @failed count error executes within running failed =>
      exact ⟨.error error, _, runLimited_eq fits (.error error) split, loop,
        .failed executes within running failed⟩
  | stopped executes within reached =>
      obtain ⟨total, run, rfl⟩ := executes.runLimited fits within split
      exact ⟨.ok total, _, run, loop, .stopped executes within reached⟩

/-! ## Runs one after the other -/

/-- Two runs are one run, and what they count adds up if neither fails. -/
theorem runLimited_runLimited {first second : UInt64}
    (fits : machine.cycles.toNat + first.toNat + second.toNat < countLimit) :
    ((machine.runLimited first).2.runLimited second).2 = (machine.runLimited (first + second)).2 ∧
      ∀ total, (machine.runLimited (first + second)).1 = .ok total ↔
        ∃ one other, (machine.runLimited first).1 = .ok one ∧
          ((machine.runLimited first).2.runLimited second).1 = .ok other ∧
          total.toNat = one.toNat + other.toNat := by
  have sum : (first + second).toNat = first.toNat + second.toNat :=
    (UInt64.toNat_add _ _).trans (Nat.mod_eq_of_lt (by simp only [countLimit] at fits; omega))
  obtain ⟨outcome, middle, split, ends⟩ := machine.exists_ends first.toNat
  have whole := runFor_add first.toNat second.toNat machine
  rw [split, ← sum] at whole
  cases ends with
  | @failed count error _ _ _ failed =>
      have halted : (machine.stepped (count + 1)).state = .halted := halted_of_step_error failed
      have front : machine.runLimited first =
          (.error (.step error), machine.stepped (count + 1)) :=
        runLimited_eq (by omega) (.error error) split
      have once : machine.runLimited (first + second) =
          (.error (.step error), machine.stepped (count + 1)) :=
        runLimited_eq (by omega) (.error error) whole
      rw [front, once]
      exact ⟨snd_runLimited_of_halted halted second, fun total => ⟨nofun, nofun⟩⟩
  | @stopped count executes within reached =>
      obtain ⟨one, front, isOne⟩ := executes.runLimited (by omega) within split
      have counted := executes.cycles (by omega)
      obtain ⟨outcome, last, rest, ends⟩ := (machine.stepped count).exists_ends second.toNat
      replace whole := whole.trans rest
      rw [front]
      cases ends with
      | @failed more error _ _ _ failed =>
          rw [runLimited_eq (by omega) (.error error) rest,
            runLimited_eq (by omega) (.error error) whole]
          exact ⟨rfl, fun total => ⟨nofun, nofun⟩⟩
      | @stopped more goesOn withinMore reachedMore =>
          obtain ⟨other, back, isOther⟩ := goesOn.runLimited (by omega) withinMore rest
          rw [stepped_add] at whole back
          obtain ⟨both, once, isBoth⟩ :=
            (executes.add goesOn).runLimited (by omega) (by omega) whole
          rw [back, once]
          refine ⟨rfl, fun total => ?_⟩
          constructor
          · rintro ⟨⟩
            exact ⟨one, other, rfl, rfl, by omega⟩
          · rintro ⟨_, _, ⟨⟩, ⟨⟩, adds⟩
            exact congrArg Except.ok (UInt64.toNat_inj.mp (by omega))

/-- A run without a bound is any run that is long enough. -/
theorem Finishes.runLimited (finishes : machine.Finishes count) {maximum : UInt64}
    (enough : count < maximum.toNat)
    (fits : machine.cycles.toNat + maximum.toNat < countLimit) :
    ∃ outcome last, machine.run? (count + 1) = some (outcome, last) ∧
      machine.runLimited maximum = (outcome.mapError .step, last) := by
  have halted := finishes.halted
  have same := runFor_of_le halted enough
  obtain ⟨outcome, last, split, -⟩ := machine.exists_ends maximum.toNat
  rw [← same, split] at halted
  refine ⟨_, last, ?_, runLimited_eq fits outcome split⟩
  rw [run?, ← same, split]
  dsimp only at halted ⊢
  rw [halted]
  cases outcome <;> rfl

/-- A run without a bound that ends stays as it is with more fuel. -/
theorem run_of_le {enough more : Nat} {result : Except StepError UInt64 × Machine geometry}
    (ended : machine.run? enough = some result) (le : enough ≤ more) :
    machine.run? more = some result := by
  have halted : (machine.runFor enough).2.state = .halted := by
    cases state : (machine.runFor enough).2.state with
    | halted => rfl
    | running =>
        rw [run?] at ended
        dsimp only at ended
        rw [state] at ended
        cases ended
  rw [run?, runFor_of_le halted le]
  exact ended

theorem run_unique {fuel other : Nat} {result another : Except StepError UInt64 × Machine geometry}
    (ended : machine.run? fuel = some result) (also : machine.run? other = some another) :
    result = another := by
  rcases Nat.le_total fuel other with le | le
  · exact Option.some.inj ((run_of_le ended le).symm.trans also)
  · exact Option.some.inj (ended.symm.trans (run_of_le also le))

theorem Finishes.exists_run (finishes : machine.Finishes count) :
    ∃ result, machine.run? (count + 1) = some result := by
  rw [run?]
  dsimp only
  rw [finishes.halted]
  exact ⟨_, rfl⟩

/-- A run with a bound goes through its loop, which takes the steps that are left to take,
says how many it took or why the last one failed, and goes on where another one stopped.  A
machine that finishes does so in the same way without a bound as with any that is large
enough. -/
theorem runs_compose (machine : Machine geometry) :
    (∀ maximum : UInt64, machine.cycles.toNat + maximum.toNat < countLimit →
      ∃ (outcome : Except StepError UInt64) (last : Machine geometry),
        machine.runLimited maximum = (outcome.mapError .step, last) ∧
        (∀ result, machine.RunsTo (machine.cycles.toNat + maximum.toNat) result ↔
          result = (outcome.map fun _ => (), last)) ∧
        machine.Ends maximum.toNat (outcome.map UInt64.toNat, last)) ∧
    (∀ first second : UInt64,
      machine.cycles.toNat + first.toNat + second.toNat < countLimit →
        ((machine.runLimited first).2.runLimited second).2 =
          (machine.runLimited (first + second)).2 ∧
        ∀ total, (machine.runLimited (first + second)).1 = .ok total ↔
          ∃ one other, (machine.runLimited first).1 = .ok one ∧
            ((machine.runLimited first).2.runLimited second).1 = .ok other ∧
            total.toNat = one.toNat + other.toNat) ∧
    ∀ count, machine.Finishes count →
      ∃ outcome last, (∀ fuel, count < fuel → machine.run? fuel = some (outcome, last)) ∧
        (∀ fuel other, machine.run? fuel = some other → other = (outcome, last)) ∧
        ∀ maximum : UInt64, count < maximum.toNat →
          machine.cycles.toNat + maximum.toNat < countLimit →
          machine.runLimited maximum = (outcome.mapError .step, last) := by
  refine ⟨fun _ => exists_runLimited, fun _ _ => runLimited_runLimited, fun count finishes => ?_⟩
  obtain ⟨⟨outcome, last⟩, ended⟩ := finishes.exists_run
  refine ⟨outcome, last, fun fuel more => run_of_le ended more, ?_, ?_⟩
  · intro fuel other also
    exact run_unique also ended
  · intro maximum enough fits
    obtain ⟨_, _, run, limited⟩ := finishes.runLimited enough fits
    cases ended.symm.trans run
    exact limited

/-- A load, then a word that is no instruction: runs of one step, of four, and of both. -/
theorem runs_compose_unknown :
    ∃ (machine last : Machine {}) (outcome : Except StepError UInt64), machine.Reachable ∧
      (machine.stepped 1).step.1 = .error (.unknownOpcode 0xEE 63) ∧
      machine.runLimited 4 = (outcome.mapError .step, last) ∧
      machine.RunsTo 4 (outcome.map fun _ => (), last) ∧
      machine.Ends 4 (outcome.map UInt64.toNat, last) ∧
      ((machine.runLimited 1).2.runLimited 4).2 = (machine.runLimited 5).2 ∧
      machine.run? 2 = some (outcome, last) := by
  obtain ⟨machine, reachable, represents⟩ :=
    exists_represents_load [0x0100000005#40, 0xEE00000000#40] (by decide)
  have cycles : machine.cycles = 0 := represents.cycles
  have failed : (machine.stepped 1).step.1 = .error (.unknownOpcode 0xEE 63) := by
    rw [stepped, stepped, represents.step.2.step.1]
    decide +kernel
  have small : machine.cycles.toNat + (4 : UInt64).toNat < countLimit := by
    rw [cycles]
    decide
  have limit : machine.cycles.toNat + (4 : UInt64).toNat = 4 := by rw [cycles]; rfl
  obtain ⟨bounded, composes, finish⟩ := machine.runs_compose
  obtain ⟨after, -⟩ := composes 1 4 (by rw [cycles]; decide)
  obtain ⟨outcome, last, ended, -, same⟩ := finish 1 (.inr ⟨_, failed⟩)
  obtain ⟨found, rest, run, loop, ends⟩ := bounded 4 small
  rw [limit] at loop
  obtain ⟨told, rfl⟩ := Prod.mk.inj (run.symm.trans (same 4 (by decide) small))
  obtain rfl : found = outcome := by
    cases found <;> cases outcome <;> cases told <;> rfl
  exact ⟨machine, rest, found, reachable, failed, run, (loop _).mpr rfl, ends, after,
    ended 2 (by decide)⟩

end BitSerial.Machine
