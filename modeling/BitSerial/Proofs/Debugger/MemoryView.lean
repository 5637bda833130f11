import BitSerial.Proofs.Debugger.Reachable
import BitSerial.Proofs.Machine.ExactTiming
import BitSerial.Proofs.Machine.Soundness
import Mathlib.Data.List.Intervals

/-!
# The memory view

The view reads words off the tape without a pulse, and a step waits for its word and lets
it pass.  On a line between two instructions both find the same word, however the line is
turned and whatever was written on it.  So the rows tell which words the machine will
execute, and the row at the counter which instruction comes next.
-/

namespace BitSerial

/-- The text of an instruction begins with its mnemonic. -/
theorem Instruction.mnemonic_isPrefix_text (instruction : Instruction) :
    instruction.mnemonic.toList <+: instruction.text := by
  cases instruction with
  | plain op => exact List.prefix_rfl
  | wide op operand => exact List.prefix_append _ _
  | data op address =>
      rw [text, List.append_assoc]
      exact List.prefix_append _ _

theorem Word.text_of_decode {word : Word} {instruction : Instruction}
    (decoded : Instruction.decode word = .ok instruction) : Word.text word = instruction.text := by
  rw [text, decoded]

namespace Machine

variable {geometry : Geometry} {machine : Machine geometry}

/-- The word that a step would fetch if the counter stood at an address. -/
def fetchedFrom (machine : Machine geometry) (address : Fin geometry.mainWords) : Word :=
  ({ machine with counter := address } : Machine geometry).fetch.1

theorem fetchedFrom_counter (machine : Machine geometry) :
    machine.fetchedFrom machine.counter = machine.fetch.1 :=
  rfl

theorem Represents.setCounter {state : WordMachine geometry} (represents : machine.Represents state)
    (address : Fin geometry.mainWords) :
    ({ machine with counter := address } : Machine geometry).Represents
      { state with counter := address } :=
  { represents with counter := rfl }

/-- What is read off the tape at an address is what a step would fetch from there. -/
theorem Reachable.fetchedFrom_eq (reachable : machine.Reachable)
    (address : Fin geometry.mainWords) :
    machine.fetchedFrom address = machine.main.peekWord Bank.sole address :=
  (reachable.represents.setCounter address).fetch.1

theorem programWord?_of_inside (machine : Machine geometry) (address : Fin geometry.mainWords) :
    machine.programWord? address = .ok (machine.main.peekWord Bank.sole address) := by
  rw [programWord?, machine.main.place?_of_inside Nat.zero_lt_one address.isLt]
  rfl

/-- The head stands at the first bit of the word that the clock shows. -/
theorem Reachable.clock_eq_iff (reachable : machine.Reachable) {address : Nat} :
    machine.clock = address ↔ machine.main.position Bank.sole = address * 40 := by
  have aligned := reachable.represents.mainAligned
  rw [clock, Bank.clock]
  omega

end Machine

namespace Debugger

variable {geometry : Geometry} {debugger : Debugger geometry} {height : Nat}

/-! ## Single rows -/

/-- What a row has to show of an address: the word that would be fetched from there, and
whether the counter, the head and a breakpoint are there. -/
structure Shows (debugger : Debugger geometry) (place : Fin geometry.mainWords)
    (row : MemoryRow) : Prop where
  address : row.address = place
  text : row.text = Word.text (debugger.machine.fetchedFrom place)
  counter : row.atCounter = true ↔ debugger.machine.counter = place
  head : row.atHead = true ↔ debugger.machine.main.position Bank.sole = place * 40
  breakpoint : row.atBreakpoint = true ↔ place.val ∈ debugger.breakpoints.addresses

/-- Every address that main memory has has a row. -/
theorem exists_memoryRow (reachable : debugger.machine.Reachable)
    (address : Fin geometry.mainWords) :
    ∃ row, debugger.memoryRow? address = some row ∧ debugger.Shows address row := by
  rw [memoryRow?, debugger.machine.programWord?_of_inside]
  refine ⟨_, rfl, ?_⟩
  constructor
  · rfl
  · rw [reachable.fetchedFrom_eq]
  · rw [decide_eq_true_iff, Fin.val_inj, eq_comm]
  · rw [decide_eq_true_iff, eq_comm]
    exact reachable.clock_eq_iff
  · exact List.contains_iff_mem

/-! ## All rows -/

/-- The rows of some addresses that main memory has are as many and in the same order. -/
theorem address_filterMap_memoryRow (reachable : debugger.machine.Reachable) {addresses : List Nat}
    (inside : ∀ address ∈ addresses, address < geometry.mainWords) :
    (addresses.filterMap debugger.memoryRow?).map MemoryRow.address = addresses := by
  induction addresses with
  | nil => rfl
  | cons address rest ih =>
      obtain ⟨row, found, shows⟩ :=
        exists_memoryRow reachable ⟨address, inside address List.mem_cons_self⟩
      rw [List.filterMap_cons_some found, List.map_cons, shows.address,
        ih fun other member => inside other (List.mem_cons_of_mem address member)]

theorem memoryRows_eq :
    debugger.memoryRows height =
      (List.Ico debugger.scroll (min geometry.mainWords (debugger.scroll + height))).filterMap
        debugger.memoryRow? :=
  rfl

/-- The rows of a view can be told exactly if the address behind them is a count. -/
theorem memoryRows?_eq :
    debugger.memoryRows? height =
      if debugger.scroll + height < countLimit then some (debugger.memoryRows height)
      else none := by
  rw [memoryRows?, Count.add?, Count.fit?]
  split <;> rfl

theorem lt_of_mem_view {address : Nat}
    (member : address ∈
      List.Ico debugger.scroll (min geometry.mainWords (debugger.scroll + height))) :
    address < geometry.mainWords :=
  Nat.lt_of_lt_of_le (List.Ico.mem.mp member).2 (Nat.min_le_left _ _)

theorem exists_shows_of_mem (reachable : debugger.machine.Reachable) {row : MemoryRow}
    (member : row ∈ debugger.memoryRows height) : ∃ address, debugger.Shows address row := by
  rw [memoryRows_eq] at member
  obtain ⟨address, listed, found⟩ := List.mem_filterMap.mp member
  obtain ⟨_, isRow, shows⟩ := exists_memoryRow reachable ⟨address, lt_of_mem_view listed⟩
  obtain rfl := Option.some.inj (isRow.symm.trans found)
  exact ⟨_, shows⟩

/-- The row at the counter shows the instruction that a step executes. -/
theorem Shows.executes {address : Fin geometry.mainWords} {row : MemoryRow}
    (shows : debugger.Shows address row) (atCounter : row.atCounter = true)
    {instruction : Instruction} (stepped : debugger.machine.step.1 = .ok instruction) :
    row.text = Word.text debugger.machine.fetch.1 ∧
      Instruction.decode debugger.machine.fetch.1 = .ok instruction ∧
      instruction.mnemonic.toList <+: row.text := by
  have text : row.text = Word.text debugger.machine.fetch.1 := by
    rw [shows.text, ← shows.counter.mp atCounter, Machine.fetchedFrom_counter]
  have decoded := (Machine.decode_of_step (Prod.ext stepped rfl)).1
  refine ⟨text, decoded, ?_⟩
  rw [text, Word.text_of_decode decoded]
  exact instruction.mnemonic_isPrefix_text

@[simp]
theorem scroll_step (debugger : Debugger geometry) : debugger.step.scroll = debugger.scroll := by
  rw [step]
  split
  · rfl
  · split <;> rfl

/-- The view has a row for each address from the scroll on that fits in and main memory
has, in their order, and each row shows what is there.  If the row at the counter is in
view, it shows the word that the next step decodes and executes, and begins with the
mnemonic of the instruction. -/
theorem Reachable.memoryRows_exact (reachable : debugger.Reachable)
    (fits : debugger.scroll + height < countLimit) :
    debugger.memoryRows? height = some (debugger.memoryRows height) ∧
      (debugger.memoryRows height).map MemoryRow.address =
        List.Ico debugger.scroll (min geometry.mainWords (debugger.scroll + height)) ∧
      (∀ row ∈ debugger.memoryRows height, ∃ address, debugger.Shows address row) ∧
      ∀ row ∈ debugger.memoryRows height, row.atCounter = true →
        ∀ instruction, debugger.machine.step.1 = .ok instruction →
          row.text = Word.text debugger.machine.fetch.1 ∧
            Instruction.decode debugger.machine.fetch.1 = .ok instruction ∧
            instruction.mnemonic.toList <+: row.text := by
  refine ⟨?_, ?_, ?_, ?_⟩
  · rw [memoryRows?_eq, if_pos fits]
  · rw [memoryRows_eq]
    exact address_filterMap_memoryRow reachable.machine fun address => lt_of_mem_view
  · intro row
    exact exists_shows_of_mem reachable.machine
  · intro row member atCounter instruction stepped
    obtain ⟨address, shows⟩ := exists_shows_of_mem reachable.machine member
    exact shows.executes atCounter stepped

/-- The first word writes zero over the halt behind it.  The view then shows the idle word that
the halt was made into, and the word at the counter as it is executed. -/
theorem memoryRows_exact_rewritten :
    ∃ debugger : Debugger {}, debugger.Reachable ∧
      (debugger.memoryRows 8).map MemoryRow.address = [61, 62, 63] ∧
      (∃ row ∈ debugger.memoryRows 8, row.address = 63 ∧ row.text = "NOP".toList) ∧
      ∃ row ∈ debugger.memoryRows 8, row.atCounter = true ∧
        debugger.machine.step.1 = .ok (.wide .lai 5) ∧ row.text = "LAI 5".toList ∧
        "LAI".toList <+: row.text := by
  obtain ⟨first, started, scroll⟩ : ∃ first : Debugger {},
      start {} ⟨61, [0x190000003F, 0x0100000005, 0xFF00000000], .empty⟩ = .ok first ∧
        first.scroll = 61 := ⟨_, rfl, rfl⟩
  have reachable : first.step.Reachable := .act .step (.start started)
  obtain ⟨fresh, built, loaded, -⟩ := exists_of_start started
  obtain ⟨_, rfl⟩ := Machine.eq_fresh_of_build built
  -- the words behind the step are computed; its pulses are not
  have represents := ((Machine.represents_fresh Geometry.valid_standard).loadProgram loaded).step.2
  rw [← machine_step first] at represents
  rw [← scroll_step first] at scroll
  obtain ⟨-, addresses, shown, executed⟩ :=
    reachable.memoryRows_exact (by rw [scroll]; decide : first.step.scroll + 8 < countLimit)
  rw [scroll] at addresses
  have visible (address : Nat) (listed : address ∈ [61, 62, 63]) :
      ∃ row ∈ first.step.memoryRows 8, row.address = address :=
    List.mem_map.mp (addresses ▸ listed)
  obtain ⟨last, lastShown, lastAddress⟩ := visible 63 (by decide)
  obtain ⟨next, nextShown, nextAddress⟩ := visible 62 (by decide)
  obtain ⟨lastPlace, lastShows⟩ := shown last lastShown
  obtain ⟨nextPlace, nextShows⟩ := shown next nextShown
  obtain rfl : lastPlace = 63 := Fin.ext (lastShows.address.symm.trans lastAddress)
  obtain rfl : nextPlace = 62 := Fin.ext (nextShows.address.symm.trans nextAddress)
  have lastText : last.text = "NOP".toList := by
    rw [lastShows.text, reachable.machine.fetchedFrom_eq, represents.main.word]
    decide +kernel
  have nextText : next.text = "LAI 5".toList := by
    rw [nextShows.text, reachable.machine.fetchedFrom_eq, represents.main.word]
    decide +kernel
  have atCounter : next.atCounter = true := by
    rw [nextShows.counter, represents.counter]
    decide +kernel
  have stepped : first.step.machine.step.1 = .ok (.wide .lai 5) := by
    rw [represents.step.1]
    decide +kernel
  exact ⟨first.step, reachable, addresses, ⟨last, lastShown, lastAddress, lastText⟩, next,
    nextShown, atCounter, stepped, nextText, (executed next nextShown atCounter _ stepped).2.2⟩

end Debugger

end BitSerial
