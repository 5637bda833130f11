import BitSerial.Proofs.CommandLine.Runs
import BitSerial.Proofs.Machine.BoundedRuns
import Mathlib.Data.List.FinRange

/-!
# Runs that are reported

The command that runs a program takes steps by a loop of its own, which prints numbers as
they come.  It is held against a run with the same bound of a machine that was loaded with
the program: what it prints, how it ends and what it reports are read off that run.
-/

namespace BitSerial

/-! ## Data words that are not zero -/

/-- The places of the words that are not zero, bank by bank. -/
def occupied {banks words : Nat} (content : Fin banks → Fin words → Word) :
    List (Fin banks × Fin words) :=
  (List.finRange banks).flatMap fun bank =>
    ((List.finRange words).filter fun word => content bank word ≠ 0).map (bank, ·)

section Occupied

variable {banks words : Nat} {content : Fin banks → Fin words → Word}

theorem mem_occupied_iff {bank : Fin banks} {word : Fin words} :
    (bank, word) ∈ occupied content ↔ content bank word ≠ 0 := by
  simp [occupied]

/-- No place comes twice, banks come in order, and words within their bank. -/
theorem pairwise_occupied :
    (occupied content).Pairwise (Prod.Lex (· < ·) (· < ·)) := by
  rw [occupied, List.pairwise_flatMap]
  constructor
  · intro bank _
    rw [List.pairwise_map]
    exact ((List.pairwise_lt_finRange words).filter _).imp fun less => Prod.Lex.right _ less
  · refine (List.pairwise_lt_finRange banks).imp ?_
    intro first second less earlier inFirst later inSecond
    obtain ⟨word, -, rfl⟩ := List.mem_map.mp inFirst
    obtain ⟨other, -, rfl⟩ := List.mem_map.mp inSecond
    exact Prod.Lex.left _ _ less

end Occupied

namespace CommandLine

open Dialogue

variable {geometry : Geometry} {machine last : Machine geometry} {count : Nat}

/-- The line for a data word. -/
def dataLine (bank word : Nat) (content : Word) : String :=
  s!"data[{bank}][{word}] = {content.signed}"

/-- What is reported of a machine after a run. -/
def report (machine : Machine geometry) : List String :=
  ["", "━━━ Result ━━━",
    "Cycles: " ++ toString machine.cycles.toNat,
    "Ticks:  " ++ toString machine.ticks.toNat,
    "State:  " ++ machine.state.name,
    machine.registers.inspect] ++
  (occupied machine.view.data).map fun (bank, word) =>
    dataLine bank word (machine.view.data bank word)

end CommandLine

end BitSerial
