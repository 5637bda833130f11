import BitSerial.Machine.Load
import BitSerial.Proofs.Machine.Refinement

/-!
# Loading is writing over the whole program line

In one revolution with refresh off every cell of the line is written: idle pulses
write the zeros before a program, and the program's bits follow.  So what stood
on the line before does not matter, and neither does where its head was.
-/

namespace BitSerial

open DelayLine
open StreamOrder

/-- Words that stream one after the other can be told apart again. -/
theorem StreamOrder.take_drop_flatMap_bits (order : StreamOrder) {words : List Word} {index : Nat}
    (inside : index < words.length) :
    ((words.flatMap order.bits).drop (index * 40)).take 40 = order.bits words[index] := by
  induction words generalizing index with
  | nil => exact absurd inside (Nat.not_lt_zero index)
  | cons word rest ih =>
      rw [List.flatMap_cons]
      cases index with
      | zero =>
          rw [Nat.zero_mul, List.drop_zero, List.take_left' (StreamOrder.length_bits order word)]
          rfl
      | succ index =>
          rw [Nat.succ_mul, Nat.add_comm, ← List.drop_drop,
            List.drop_left' (StreamOrder.length_bits order word)]
          exact ih (Nat.lt_of_succ_lt_succ inside)

theorem StreamOrder.length_flatMap_bits (order : StreamOrder) (words : List Word) :
    (words.flatMap order.bits).length = words.length * 40 := by
  induction words with
  | nil => rfl
  | cons word rest ih =>
      rw [List.flatMap_cons, List.length_append, StreamOrder.length_bits, ih, List.length_cons,
        Nat.succ_mul, Nat.add_comm]

theorem StreamOrder.flatMap_bits_zeros (order : StreamOrder) (count : Nat) :
    (List.replicate count (0 : Word)).flatMap order.bits = List.replicate (count * 40) false := by
  induction count with
  | zero => rw [Nat.zero_mul]; rfl
  | succ count ih =>
      rw [List.replicate_succ, List.flatMap_cons, ih, bits_zero, List.replicate_append_replicate,
        Nat.succ_mul, Nat.add_comm]

namespace Machine

variable {geometry : Geometry}

/-- Silence and program are one run of words. -/
theorem imprint_eq {line : DelayLine (geometry.mainWords * 40)} (settled : line.Settled)
    (silence : Nat) (program : List Word) :
    imprint silence program line =
      line.writeAll ((List.replicate silence 0 ++ program).flatMap highFirst.bits) := by
  have pending : (line.setRefresh false).pending = none := settled.pending
  rw [imprint, advance_of_not_refresh pending rfl, ← writeAll_append, writeAll_setRefresh,
    List.flatMap_append, flatMap_bits_zeros]
  exact setRefresh_of_refresh ((refresh_writeAll _ line).trans settled.refresh)

/-- From the line's first cell on, each word goes to its address. -/
theorem segment_imprint {line : DelayLine (geometry.mainWords * 40)} (settled : line.Settled)
    (head : line.head.val = 0) {program : List Word} (short : program.length ≤ geometry.mainWords)
    (address : Fin geometry.mainWords) :
    (imprint (geometry.mainWords - program.length) program line).segment (address * 40) 40 =
      highFirst.bits (WordMachine.image program address) := by
  have inside := address.isLt
  have wholeLength : (List.replicate (geometry.mainWords - program.length) 0 ++ program).length =
      geometry.mainWords := by
    rw [List.length_append, List.length_replicate, Nat.sub_add_cancel short]
  have bitsLength : ((List.replicate (geometry.mainWords - program.length) 0 ++ program).flatMap
      highFirst.bits).length = geometry.mainWords * 40 := by
    rw [length_flatMap_bits, wholeLength]
  have written := segment_writeAll line (Nat.le_of_eq bitsLength)
  rw [head, bitsLength] at written
  have part := take_drop_segment (line.writeAll
    ((List.replicate (geometry.mainWords - program.length) 0 ++ program).flatMap highFirst.bits)) 0
    (Bank.word_mul_add_le address)
  rw [written, take_drop_flatMap_bits highFirst (by rw [wholeLength]; exact inside),
    Nat.zero_add] at part
  rw [imprint_eq settled, ← part, WordMachine.image]
  by_cases behind : geometry.mainWords - program.length ≤ address
  · have offset : address - (geometry.mainWords - program.length) < program.length := by omega
    rw [List.getElem_append_right (by simpa using behind)]
    simp [behind, offset]
  · rw [List.getElem_append_left (by rw [List.length_replicate]; exact Nat.lt_of_not_le behind)]
    simp [behind]

/-- The line of a bank at rest is written over with the program's memory. -/
theorem keeps_imprint {bank : Bank 1 geometry.mainWords}
    {content : Fin 1 → Fin geometry.mainWords → Word} (keeps : bank.Keeps content)
    (order : bank.order = .highFirst) (head : (bank.line Bank.sole).head.val = 0)
    {program : List Word} (short : program.length ≤ geometry.mainWords) :
    (bank.modifyLine Bank.sole (imprint (geometry.mainWords - program.length) program)).Keeps
      fun _ => WordMachine.image program := by
  have settled := keeps.settled Bank.sole
  have every : Function.update content Bank.sole (WordMachine.image program) =
      fun _ => WordMachine.image program := by
    funext channel
    have only : channel = Bank.sole := Subsingleton.elim channel Bank.sole
    rw [only, Function.update_self]
  rw [← every]
  apply keeps.modifyLine
  · rw [imprint_eq settled]
    exact settled.writeAll _
  · intro address
    rw [order]
    exact segment_imprint settled head short address

variable {machine : Machine geometry} {state : WordMachine geometry}

/-- Words that fit are loaded. -/
theorem loadWords_of_le {words : List Word} (fits : words.length ≤ geometry.mainWords)
    (machine : Machine geometry) : ∃ loaded, machine.loadWords words = (.ok (), loaded) := by
  rw [Machine.loadWords]
  exact ⟨_, if_neg (Nat.not_lt_of_le fits)⟩

/-- A program that ends where main memory ends is loaded. -/
theorem loadProgram_of_le {program : Program} (fits : program.size ≤ geometry.mainWords)
    (base : program.base = geometry.mainWords - program.size) (machine : Machine geometry) :
    ∃ loaded, machine.loadProgram program = (.ok (), loaded) := by
  obtain ⟨loaded, written⟩ := loadWords_of_le fits machine
  refine ⟨loaded, ?_⟩
  rw [loadProgram, if_neg (Nat.not_lt_of_le fits)]
  dsimp only
  rw [if_pos base, written]

/-- A program is loaded by its words. -/
theorem loadWords_of_loadProgram {program : Program} {after : Machine geometry}
    (loaded : machine.loadProgram program = (.ok (), after)) :
    machine.loadWords program.words = (.ok (), after) := by
  rw [loadProgram] at loaded
  split at loaded
  · cases loaded
  · dsimp only at loaded
    split at loaded
    · exact loaded
    · cases loaded

/-- Words that are refused leave the machine as it was. -/
theorem eq_of_loadWords_error {words : List Word} {error : LoadError} {after : Machine geometry}
    (refused : machine.loadWords words = (.error error, after)) : after = machine := by
  rw [Machine.loadWords] at refused
  split at refused
  · cases refused
    rfl
  · cases refused

/-- So does a program that is refused. -/
theorem eq_of_loadProgram_error {program : Program} {error : LoadError}
    {after : Machine geometry} (refused : machine.loadProgram program = (.error error, after)) :
    after = machine := by
  rw [loadProgram] at refused
  split at refused
  · cases refused
    rfl
  · dsimp only at refused
    split at refused
    · exact eq_of_loadWords_error refused
    · cases refused
      rfl

section Attempts

variable {P : Machine geometry → Prop} {after : Machine geometry} {outcome : Except LoadError Unit}

/-- What holds of a machine, and of it with the words on its line, holds after they were
accepted or refused. -/
theorem holds_loadWords {words : List Word} (holds : P machine)
    (loads : machine.loadWords words = (.ok (), after) → P after)
    (tried : machine.loadWords words = (outcome, after)) : P after := by
  cases outcome with
  | error error => exact eq_of_loadWords_error tried ▸ holds
  | ok _ => exact loads tried

theorem holds_loadProgram {program : Program} (holds : P machine)
    (loads : machine.loadWords program.words = (.ok (), after) → P after)
    (tried : machine.loadProgram program = (outcome, after)) : P after := by
  cases outcome with
  | error error => exact eq_of_loadProgram_error tried ▸ holds
  | ok _ => exact loads (loadWords_of_loadProgram tried)

end Attempts

/-- A loaded machine represents the loaded state, whatever it represented before. -/
theorem Represents.loadWords (represents : machine.Represents state) {program : List Word}
    {after : Machine geometry} (loaded : machine.loadWords program = (.ok (), after)) :
    after.Represents (state.load program) := by
  have keeps := represents.main
  rw [Machine.loadWords] at loaded
  split at loaded
  · cases loaded
  · rename_i fits
    have short : program.length ≤ geometry.mainWords := Nat.le_of_not_lt fits
    have start := machine.main.head_align Bank.sole (machine.around 0)
    rw [show (machine.around 0).val = 0 from Nat.zero_mod _, Nat.zero_mul] at start
    have aligned := keeps.align Bank.sole (machine.around 0)
    have imprinted := keeps_imprint aligned represents.mainOrder start short
    have entryAligned := Bank.position_align ((machine.main.align Bank.sole
      (machine.around 0)).modifyLine Bank.sole
        (imprint (geometry.mainWords - program.length) program)) Bank.sole
      (machine.around (geometry.mainWords - program.length))
    cases loaded
    exact { represents with
      main := imprinted.align Bank.sole _
      mainOrder := represents.mainOrder
      mainAligned := by
        dsimp only
        rw [entryAligned]
        exact Nat.mul_mod_left _ 40
      counter := rfl
      base := rfl
      base_le := Nat.sub_le _ _
      running := rfl }

end Machine

end BitSerial
