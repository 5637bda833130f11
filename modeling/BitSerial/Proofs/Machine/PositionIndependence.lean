import BitSerial.Proofs.Machine.Reachable
import BitSerial.Proofs.Machine.Relocation
import BitSerial.Proofs.Machine.Stepping

/-!
# Position independence

Where a program stands depends on how long the program line is, and so does how long
the machine waits for a word.  A program without absolute addresses cannot find out:
machines that differ in nothing but the length of their program lines do the same with
it, as long as it is not left at its end.
-/

namespace BitSerial.Machine

variable {geometry one other : Geometry} {size : Nat} {program : List Word}

/-- Whether a step goes on behind the last word of main memory, with an instruction
that neither jumps nor halts. -/
def RunsOff (machine : Machine geometry) : Prop :=
  ∃ instruction, machine.step.1 = .ok instruction ∧ instruction ≠ .plain .hlt ∧
    ¬instruction.Jumps (machine.registers.peek .a) ∧ machine.counter + 1 = geometry.mainWords

/-- A jump to an offset fails exactly if a program has no word there. -/
def JumpsWithin (program : List Word) (machine : Machine geometry) : Prop :=
  ∀ op operand, machine.state = .running →
    Instruction.decode machine.fetch.1 = .ok (.wide op operand) →
    (Instruction.wide op operand).Jumps (machine.registers.peek .a) →
      ((∃ error, machine.step.1 = .error error) ↔ program.length ≤ operand.toNat)

/-- Two machines with a program at the tail of main memory that a user can tell apart
only by where it stands.  While they run they are at the same word of it, and their next
steps give the same instruction or the same fault. -/
structure AgreeOn (program : List Word) (first : Machine one) (second : Machine other) :
    Prop where
  register : ∀ name, first.registers.peek name = second.registers.peek name
  data : first.data.contents = second.data.contents
  output : first.output = second.output
  cycles : first.cycles = second.cycles
  state : first.state = second.state
  last : first.last = second.last
  base : first.base + program.length = one.mainWords ∧
    second.base + program.length = other.mainWords
  counter : first.state = .running → ∃ offset < program.length,
    first.counter.val = first.base + offset ∧ second.counter.val = second.base + offset
  outcome : ∃ outcome : Except StepError Instruction,
    first.step.1 = outcome.mapError (·.shift first.base) ∧
      second.step.1 = outcome.mapError (·.shift second.base)
  jump : first.JumpsWithin program ∧ second.JumpsWithin program

/-! ## Machines whose instruction sets are in step -/

theorem Represents.runsOff_iff {machine : Machine geometry}
    (represents : machine.Represents machine.view) : machine.RunsOff ↔ machine.view.RunsOff := by
  rw [RunsOff, WordMachine.RunsOff, represents.step.1]
  rfl

/-- Two machines at rest that show states in step. -/
structure Paired (program : List Word) (first : Machine geometry)
    (second : Machine (geometry.resized size)) : Prop where
  here : first.Represents first.view
  there : second.Represents second.view
  inStep : WordMachine.InStep program first.view second.view

theorem Represents.paired {first : Machine geometry} {second : Machine (geometry.resized size)}
    {state : WordMachine geometry} {stateOther : WordMachine (geometry.resized size)}
    (here : first.Represents state) (there : second.Represents stateOther)
    (inStep : WordMachine.InStep program state stateOther) : Paired program first second := by
  obtain rfl := here.view_eq
  obtain rfl := there.view_eq
  exact ⟨here, there, inStep⟩

theorem Represents.jumpsWithin {machine : Machine geometry}
    (represents : machine.Represents machine.view) (stands : machine.view.Stands program)
    (relative : ∀ word ∈ program, Word.Relative word)
    (counter : machine.state = .running → ∃ offset < program.length,
      machine.counter.val = machine.base + offset) :
    machine.JumpsWithin program := by
  intro op operand running decoded jumps
  rw [represents.fetch.1] at decoded
  rw [represents.step.1]
  obtain ⟨offset, inside, place⟩ := counter running
  have member : machine.view.main machine.view.counter ∈ program := by
    rw [stands.word inside place]
    exact List.getElem_mem inside
  exact stands.jump_fails_iff running decoded ((relative _ member).isAbsolute decoded) jumps

namespace Paired

variable {first : Machine geometry} {second : Machine (geometry.resized size)}

theorem step (paired : Paired program first second)
    (relative : ∀ word ∈ program, Word.Relative word) (stays : ¬first.RunsOff) :
    Paired program first.step.2 second.step.2 := by
  rw [paired.here.runsOff_iff] at stays
  exact paired.here.step.2.paired paired.there.step.2 ((paired.inStep.steps relative).after stays)

theorem stepped (paired : Paired program first second)
    (relative : ∀ word ∈ program, Word.Relative word) {count : Nat}
    (stays : ∀ earlier < count, ¬(first.stepped earlier).RunsOff) :
    Paired program (first.stepped count) (second.stepped count) := by
  induction count with
  | zero => exact paired
  | succ count ih =>
      have before := ih fun earlier less => stays earlier (Nat.lt_succ_of_lt less)
      exact before.step relative (stays count (Nat.lt_succ_self count))

theorem agreeOn (paired : Paired program first second)
    (relative : ∀ word ∈ program, Word.Relative word) : AgreeOn program first second := by
  have same := paired.inStep.same
  have here := paired.inStep.here
  have there := paired.inStep.there
  have fits := here.fits
  have fitsOther := there.fits
  have counter := paired.inStep.counter
  exact {
    register := fun name => by
      cases name with
      | a => exact (congrArg WordMachine.a same).symm
      | b => exact (congrArg WordMachine.b same).symm
      | s => exact (congrArg WordMachine.s same).symm
    data := by
      have words : second.data.peekWord = first.data.peekWord := congrArg WordMachine.data same
      exact congrArg (fun words => (List.finRange geometry.dataBanks).map fun bank =>
        (List.finRange geometry.bankWords).map (words bank)) words.symm
    output := (congrArg WordMachine.output same).symm
    cycles := (congrArg WordMachine.cycles same).symm
    state := (congrArg WordMachine.state same).symm
    last := (congrArg WordMachine.last same).symm
    base := by
      have base : first.base = geometry.mainWords - program.length := here.base
      have baseOther : second.base = (geometry.resized size).mainWords - program.length :=
        there.base
      omega
    counter := counter
    outcome := by
      rw [paired.here.step.1, paired.there.step.1]
      exact (paired.inStep.steps relative).outcome
    jump := by
      constructor
      · apply paired.here.jumpsWithin here relative
        intro running
        obtain ⟨offset, inside, place, -⟩ := counter running
        exact ⟨offset, inside, place⟩
      · apply paired.there.jumpsWithin there relative
        intro running
        obtain ⟨offset, inside, -, place⟩ := counter (paired.inStep.state.symm.trans running)
        exact ⟨offset, inside, place⟩ }

end Paired

/-! ## Loading puts machines in step -/

theorem inStep_load {start : Fin geometry.mainWords}
    {startOther : Fin (geometry.resized size).mainWords} (nonempty : program ≠ [])
    (fits : program.length ≤ geometry.mainWords) (fitsOther : program.length ≤ size) :
    WordMachine.InStep program ((WordMachine.blank start).load program)
      ((WordMachine.blank startOther : WordMachine (geometry.resized size)).load program) where
  same := rfl
  here := WordMachine.stands_load fits _
  there := WordMachine.stands_load fitsOther _
  counter _ := by
    have positive := List.length_pos_iff.mpr nonempty
    have before : size - program.length < size := by omega
    refine ⟨0, positive, ?_, ?_⟩
    · exact Nat.mod_eq_of_lt (by omega)
    · exact Nat.mod_eq_of_lt before

/-- Code without absolute addresses does the same at the tail of every main memory that
has room for it, for as long as it is not left at its end. -/
theorem relative_code_agrees (valid : one.Valid) (validOther : other.Valid)
    (banks : one.dataBanks = other.dataBanks) (words : one.bankWords = other.bankWords)
    (nonempty : program ≠ []) (relative : ∀ word ∈ program, Word.Relative word)
    (fits : program.length ≤ one.mainWords) (fitsOther : program.length ≤ other.mainWords) :
    ∃ first second, (fresh valid).loadWords program = (.ok (), first) ∧
      (fresh validOther).loadWords program = (.ok (), second) ∧
      ∀ count, (∀ earlier < count, ¬(first.stepped earlier).RunsOff) →
        AgreeOn program (first.stepped count) (second.stepped count) := by
  obtain ⟨size, _, _⟩ := other
  subst banks words
  obtain ⟨first, loaded⟩ := loadWords_of_le fits (fresh valid)
  obtain ⟨second, loadedOther⟩ := loadWords_of_le fitsOther (fresh validOther)
  refine ⟨first, second, loaded, loadedOther, ?_⟩
  intro count stays
  have represents := (represents_fresh valid).loadWords loaded
  have representsOther := (represents_fresh validOther).loadWords loadedOther
  have paired := represents.paired representsOther (inStep_load nonempty fits fitsOther)
  exact (paired.stepped relative stays).agreeOn relative

/-- The standard machine with a program line of three words can be built. -/
theorem valid_short : Geometry.Valid { mainWords := 3 } :=
  { Geometry.valid_standard with mainWords_pos := by decide }

/-- A program that stores a number and then jumps behind its end fails with the same
fault on the smallest machine for it as on the standard one. -/
theorem relative_code_agrees_fault :
    ∃ (first : Machine {}) (second : Machine { mainWords := 3 }),
      (first.stepped 2).step.1 = .error (.mainAddress 64 63) ∧
        (second.stepped 2).step.1 = .error (.mainAddress 3 2) ∧
        AgreeOn [0x0100000007#40, 0x1000000000#40, 0x2000000003#40]
          (first.stepped 3) (second.stepped 3) := by
  have relative : ∀ word ∈ [0x0100000007#40, 0x1000000000#40, 0x2000000003#40],
      Word.Relative word := by
    rw [List.forall_mem_cons, List.forall_mem_cons, List.forall_mem_singleton]
    decide
  obtain ⟨first, second, loaded, loadedOther, agree⟩ :=
    relative_code_agrees Geometry.valid_standard valid_short rfl rfl (List.cons_ne_nil _ _)
      relative (by decide) (by decide)
  have represents := (represents_fresh Geometry.valid_standard).loadWords loaded
  have representsOther := (represents_fresh valid_short).loadWords loadedOther
  have fails : (first.stepped 2).step.1 = .error (.mainAddress 64 63) := by
    rw [stepped, stepped, stepped, represents.step.2.step.2.step.1]
    decide +kernel
  have failsOther : (second.stepped 2).step.1 = .error (.mainAddress 3 2) := by
    rw [stepped, stepped, stepped, representsOther.step.2.step.2.step.1]
    decide +kernel
  refine ⟨first, second, fails, failsOther, agree 3 ?_⟩
  intro earlier less
  rintro ⟨instruction, stepped, -, -, last⟩
  match earlier, less with
  | 0, _ =>
      rw [Machine.stepped, represents.counter] at last
      revert last
      decide +kernel
  | 1, _ =>
      rw [Machine.stepped, Machine.stepped, represents.step.2.counter] at last
      revert last
      decide +kernel
  | 2, _ =>
      rw [fails] at stepped
      cases stepped

end BitSerial.Machine
