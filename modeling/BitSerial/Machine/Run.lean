import BitSerial.Machine.Step

/-!
# Runs

Steps one after the other until the machine halts, a step fails, or as many as
were allowed have been taken.
-/

namespace BitSerial

/-- Why a bounded run has no number to tell. -/
inductive RunError
  /-- A step failed. -/
  | step (error : StepError)
  /-- The cycle count to stop at is no count. -/
  | overflow
  deriving DecidableEq

namespace Machine

variable {geometry : Geometry}

/-- Take at most a number of steps, while the machine runs and none fails. -/
def runFor : Nat → Machine geometry → Except StepError Unit × Machine geometry
  | 0, machine => (.ok (), machine)
  | count + 1, machine =>
      match machine.state with
      | .halted => (.ok (), machine)
      | .running =>
          match machine.step with
          | (.ok _, after) => runFor count after
          | (.error error, after) => (.error error, after)

/-- Run until the cycle count has grown by a number, and say by how much it
grew.  The count to stop at is worked out first; if it is none, not even a halted
machine gets away with it. -/
def runLimited (maximum : UInt64) (machine : Machine geometry) :
    Except RunError UInt64 × Machine geometry :=
  match Count.add? machine.cycles.toNat maximum.toNat with
  | none => (.error .overflow, machine)
  | some limit =>
      let (outcome, after) := machine.runFor (limit - machine.cycles.toNat)
      ((outcome.map fun _ => after.cycles - machine.cycles).mapError .step, after)

/-- Run until the machine halts or a step fails, and say how many instructions
it executed.  None if it takes more steps than the fuel. -/
def run? (fuel : Nat) (machine : Machine geometry) :
    Option (Except StepError UInt64 × Machine geometry) :=
  let (outcome, after) := machine.runFor fuel
  match after.state with
  | .halted => some (outcome.map fun _ => after.cycles - machine.cycles, after)
  | .running => none

section Bound

variable {machine : Machine geometry} {maximum : UInt64}

/-- With a count to stop at, a bounded run takes as many steps as it may. -/
theorem runLimited_of_fits (fits : machine.cycles.toNat + maximum.toNat < countLimit) :
    machine.runLimited maximum =
      (((machine.runFor maximum.toNat).1.map fun _ =>
          (machine.runFor maximum.toNat).2.cycles - machine.cycles).mapError .step,
        (machine.runFor maximum.toNat).2) := by
  rw [runLimited, Count.add?_of_lt fits]
  dsimp only
  rw [Nat.add_sub_cancel_left]

/-- Without one it takes none. -/
theorem runLimited_of_overflow
    (overflow : countLimit ≤ machine.cycles.toNat + maximum.toNat) :
    machine.runLimited maximum = (.error .overflow, machine) := by
  rw [runLimited, Count.add?_eq_none_iff.mpr overflow]

/-- Whichever it is, the machine is one that some steps lead to. -/
theorem exists_runFor_eq_runLimited (maximum : UInt64) (machine : Machine geometry) :
    ∃ count, (machine.runLimited maximum).2 = (machine.runFor count).2 := by
  rcases Nat.lt_or_ge (machine.cycles.toNat + maximum.toNat) countLimit with fits | overflow
  · exact ⟨maximum.toNat, by rw [runLimited_of_fits fits]⟩
  · exact ⟨0, by rw [runLimited_of_overflow overflow, runFor]⟩

end Bound

end Machine

end BitSerial
