import BitSerial.Proofs.Assembly.LabelTables
import BitSerial.Proofs.Assembly.Passes
import BitSerial.Proofs.Machine.Reachable
import BitSerial.Proofs.Text.UpperCase

/-!
# Labels mean addresses

A label goes through an upper-case mapping, a table of indices, a base that is known
only at the end, one of two ways to count, a thirty-two bit field, and on the
machine through the decoder and a base of its own.  At the end of all that, an
instruction with a label works at the address that the program gives the label.
-/

namespace BitSerial

/-- What a step does at an instruction whose operand is a label for an address,
apart from counting it.  Two operations take no labels. -/
def WordMachine.atLabel {geometry : Geometry} (op : WideOp) (address : Fin geometry.mainWords)
    (machine : WordMachine geometry) : WordMachine geometry :=
  let next := { machine with counter := machine.successor }
  match op with
  | .jmp | .jmpa => { machine with counter := address }
  | .jza => if machine.a = 0 then { machine with counter := address } else next
  | .jna => if machine.a.msb then { machine with counter := address } else next
  | .ldp => { next with a := (machine.main address).reverse }
  | .stp => next.setMain address machine.a.reverse
  | .lai => { next with a := BitVec.ofNat 40 address }
  | .lbi => { next with b := BitVec.ofNat 40 address }
  | .lea => { next with a := (BitVec.ofNat 40 address).reverse }
  | .leb => { next with b := (BitVec.ofNat 40 address).reverse }
  | .rnd | .mla => machine

/-- Operands are written in upper case. -/
theorem SourceLine.upper_of_mem_operands {lines : List (List Char)}
    {written : List Char × List (List Char)} (statement : written ∈ statements lines)
    {operand : List Char} (member : operand ∈ written.2) : Text.upper operand = operand := by
  obtain ⟨line, _, parsed⟩ := List.mem_filterMap.mp statement
  rw [parse] at parsed
  dsimp only at parsed
  rw [statement?] at parsed
  split at parsed
  · cases parsed
  · cases parsed
    obtain ⟨text, _, rfl⟩ := List.mem_map.mp member
    exact Text.upper_upper text

namespace Program

/-- A label is looked up as it is written in an operand. -/
theorem index_of_addressOf {program : Program} {label : List Char} {address : Nat}
    (upper : Text.upper label = label)
    (named : program.addressOf? (String.ofList label) = some address) :
    ∃ index, program.labels.find? (String.ofList label) = some index ∧
      address = program.base + index := by
  rw [addressOf?, String.toList_ofList, upper, Option.map_eq_some_iff] at named
  obtain ⟨index, found, rfl⟩ := named
  exact ⟨index, found, rfl⟩

end Program

namespace WordMachine

variable {geometry : Geometry} {machine : WordMachine geometry}

/-- What an operand of an operation says about the address it stands for. -/
def Names (base : Nat) (op : WideOp) (operand : Operand) (address : Nat) : Prop :=
  match (Opcode.wide op).operandForm with
  | .relative => address = base + operand.toNat
  | .absolute => address = operand.toNat
  | _ => False

variable {op : WideOp} {operand : Operand} {address : Fin geometry.mainWords}

/-- An operand that stands for an address of main memory makes no instruction
fail. -/
theorem execute_at_label (names : Names machine.base op operand address) :
    ∃ jump after, machine.execute (.wide op operand) = (.ok jump, after) ∧
      machine.atLabel op address = { after with counter := jump.getD machine.successor } := by
  -- The immediate operations take the operand as a number, the others as a place.
  have number (named : address.val = operand.toNat) :
      operand.setWidth 40 = BitVec.ofNat 40 address := by
    rw [named, BitVec.ofNat_toNat]
  cases op with
  | lai | lbi | lea | leb =>
      refine ⟨none, _, rfl, ?_⟩
      rw [atLabel, ← number names]
      rfl
  | ldp =>
      refine ⟨none, { machine with a := (machine.main address).reverse }, ?_, rfl⟩
      rw [execute, executeWide]
      exact atMain_named names _ _
  | stp =>
      refine ⟨none, machine.setMain address machine.a.reverse, ?_, rfl⟩
      rw [execute, executeWide]
      exact atMain_named names _ _
  | jmp | jmpa => exact ⟨some address, _, goto_named names _, rfl⟩
  | jza =>
      by_cases zero : machine.a = 0
      · refine ⟨some address, machine, ?_, ?_⟩
        · rw [execute, executeWide, if_pos zero]
          exact goto_named names _
        · rw [atLabel, if_pos zero]
          rfl
      · refine ⟨none, machine, ?_, ?_⟩
        · rw [execute, executeWide, if_neg zero]
          rfl
        · rw [atLabel, if_neg zero]
          rfl
  | jna =>
      by_cases negative : machine.a.msb
      · refine ⟨some address, machine, ?_, ?_⟩
        · rw [execute, executeWide, if_pos negative]
          exact goto_named names _
        · rw [atLabel, if_pos negative]
          rfl
      · refine ⟨none, machine, ?_, ?_⟩
        · rw [execute, executeWide, if_neg negative]
          rfl
        · rw [atLabel, if_neg negative]
          rfl
  | rnd | mla => exact names.elim

/-- So a step succeeds there, and works at the address. -/
theorem step_at_label (running : machine.state = .running)
    (decoded : Instruction.decode (machine.main machine.counter) = .ok (.wide op operand))
    (names : Names machine.base op operand address) :
    machine.step = (.ok (.wide op operand), { machine.atLabel op address with
      cycles := machine.cycles + 1
      last := some (.wide op operand) }) := by
  obtain ⟨jump, after, executed, atLabel⟩ := execute_at_label names
  rw [step_of_decode running decoded executed, atLabel]

end WordMachine

/-! ## Statements with labels -/

namespace Statement

variable {statement : Statement} {labels : LabelTable} {base index : Nat} {label : List Char}
  {rest : List (List Char)} {operand : Operand}

theorem toNat_of_relative (operands : statement.operands = label :: rest)
    (bound : labels.find? (String.ofList label) = some index)
    (field : statement.operandField labels base .relative = .ok operand) :
    operand.toNat = index := by
  have sole : statement.soleOperand = .ok label := by
    rw [soleOperand, operands]
  rw [operandField, sole] at field
  rw [toNat_of_resolve bound field, Nat.zero_add]

theorem toNat_of_absolute (operands : statement.operands = label :: rest)
    (bound : labels.find? (String.ofList label) = some index)
    (field : statement.operandField labels base .absolute = .ok operand) :
    operand.toNat = base + index := by
  have sole : statement.soleOperand = .ok label := by
    rw [soleOperand, operands]
  rw [operandField, sole] at field
  exact toNat_of_resolve bound field

/-- Either way of counting, the operand stands for the label's address. -/
theorem names_of_encode {op : WideOp} {word : Word}
    (directive : statement.directive = .instruction (.wide op))
    (operands : statement.operands = label :: rest)
    (bound : labels.find? (String.ofList label) = some index)
    (encoded : statement.encode labels base = .ok word) (notRound : op ≠ .rnd)
    (notMultiply : op ≠ .mla) :
    ∃ operand, Instruction.decode word = .ok (.wide op operand) ∧
      WordMachine.Names base op operand (base + index) := by
  obtain ⟨operand, field, rfl⟩ := operandField_of_encode directive encoded
  refine ⟨operand, Instruction.decode_ofParts (.wide op) operand, ?_⟩
  cases op with
  | jmp | jza | jna =>
      show base + index = base + operand.toNat
      rw [toNat_of_relative operands bound field]
  | lai | lbi | lea | leb | ldp | stp | jmpa => exact (toNat_of_absolute operands bound field).symm
  | rnd => exact absurd rfl notRound
  | mla => exact absurd rfl notMultiply

end Statement

namespace Program

variable {geometry : Geometry} {program : Program}

/-- The word of an instruction statement is read as an instruction with the
statement's mnemonic. -/
def KeepsMnemonic (written : List Char × List (List Char)) (word : Word) : Prop :=
  written.1 ≠ "DAT".toList → ∃ instruction, Instruction.decode word = .ok instruction ∧
    instruction.mnemonic.toList = written.1

/-- If the operand of a statement is a label, then on every running machine that has
the program's base and the statement's word at the counter a step succeeds and
works at the label's address, which is in main memory. -/
def KeepsLabel (geometry : Geometry) (program : Program)
    (written : List Char × List (List Char)) (word : Word) : Prop :=
  ∀ op label rest address, op ≠ .rnd → op ≠ .mla →
    written = ((Opcode.wide op).mnemonic.toList, label :: rest) →
    program.addressOf? (String.ofList label) = some address →
    ∃ inside : address < geometry.mainWords, ∀ machine : Machine geometry, machine.Reachable →
      machine.state = .running → machine.base = program.base →
      machine.view.main machine.counter = word →
      ∃ operand, machine.step.1 = .ok (.wide op operand) ∧
        machine.step.2.view = { machine.view.atLabel op ⟨address, inside⟩ with
          cycles := machine.cycles + 1
          last := some (.wide op operand) }

theorem keepsMnemonic_of_encode {statement : Statement} {labels : LabelTable} {base : Nat}
    {word : Word} (encoded : statement.encode labels base = .ok word) :
    KeepsMnemonic statement.written word := by
  intro notData
  cases directive : statement.directive with
  | word =>
      rw [Statement.written, directive] at notData
      exact absurd rfl notData
  | instruction opcode =>
      obtain ⟨operand, -, rfl⟩ := Statement.operandField_of_encode directive encoded
      refine ⟨_, Instruction.decode_ofParts opcode operand, ?_⟩
      rw [Statement.written, directive, Instruction.mnemonic, Instruction.opcode_ofOpcode]
      rfl

theorem Of.keepsLabel {lines : List (List Char)} (isOf : program.Of lines geometry.mainWords)
    {statement : Statement} {word : Word}
    (member : statement.written ∈ SourceLine.statements lines)
    (encoded : statement.encode program.labels program.base = .ok word) :
    KeepsLabel geometry program statement.written word := by
  intro op label rest address notRound notMultiply written named
  have mnemonic := congrArg Prod.fst written
  have operands : statement.operands = label :: rest := congrArg Prod.snd written
  have directive : statement.directive = .instruction (.wide op) :=
    Directive.eq_of_mnemonic mnemonic
  have upper : Text.upper label = label := by
    apply SourceLine.upper_of_mem_operands member
    rw [written]
    exact List.mem_cons_self
  obtain ⟨index, bound, rfl⟩ := index_of_addressOf upper named
  have inside : program.base + index < geometry.mainWords := by
    rw [← isOf.base_add_size]
    exact Nat.add_lt_add_left (isOf.label_lt _ (LabelTable.mem_of_find bound)) _
  obtain ⟨operand, decoded, names⟩ :=
    Statement.names_of_encode directive operands bound encoded notRound notMultiply
  refine ⟨inside, ?_⟩
  intro machine reachable running base counter
  obtain ⟨outcome, after⟩ := reachable.represents.step
  have stepped : machine.view.step = (.ok (.wide op operand),
      { machine.view.atLabel op ⟨program.base + index, inside⟩ with
        cycles := machine.cycles + 1
        last := some (.wide op operand) }) := by
    apply WordMachine.step_at_label running
    · rw [← counter] at decoded
      exact decoded
    · show WordMachine.Names machine.base op operand (program.base + index)
      rw [base]
      exact names
  refine ⟨operand, ?_, ?_⟩
  · rw [outcome, stepped]
  · rw [after.view_eq, stepped]

/-- A program that was assembled for a geometry is loaded by every machine of it, and
each of its words is then at the address that the base gives it. -/
theorem Of.loaded {lines : List (List Char)} (isOf : program.Of lines geometry.mainWords)
    {machine : Machine geometry} (reachable : machine.Reachable) :
    ∃ loaded, machine.loadProgram program = (.ok (), loaded) ∧ loaded.base = program.base ∧
      ∀ index (inside : index < program.size) (place : program.base + index < geometry.mainWords),
        loaded.view.main ⟨program.base + index, place⟩ =
          program.words.get ⟨index, inside⟩ := by
  have whole := isOf.base_add_size
  have fits : program.size ≤ geometry.mainWords := by
    rw [← whole]
    exact Nat.le_add_left _ _
  have base : program.base = geometry.mainWords - program.size := Nat.eq_sub_of_add_eq whole
  obtain ⟨loaded, accepted⟩ := Machine.loadProgram_of_le fits base machine
  have represents := reachable.represents.loadProgram accepted
  refine ⟨loaded, accepted, represents.base.trans base.symm, ?_⟩
  intro index inside place
  rw [represents.view_eq]
  exact WordMachine.image_of_getElem inside (congrArg (· + index) base)

/-- What the assembler and the machine make of a source agrees.  The program ends
where main memory ends and has all labels in it; every machine loads it to the
place that it was assembled for; its words are the source's statements in order,
with their mnemonics; and an instruction with a label works at the label's
address. -/
theorem assemble_agrees {source : String} (assembled : assemble geometry source = .ok program) :
    program.base + program.size = geometry.mainWords ∧
      (∀ entry ∈ program.labels.entries, entry.2 < program.size) ∧
      (∀ machine : Machine geometry, machine.Reachable →
        ∃ loaded, machine.loadProgram program = (.ok (), loaded) ∧ loaded.base = program.base ∧
          ∀ index (inside : index < program.size)
            (place : program.base + index < geometry.mainWords),
            loaded.view.main ⟨program.base + index, place⟩ =
              program.words.get ⟨index, inside⟩) ∧
      List.Forall₂ (fun written word =>
          KeepsMnemonic written word ∧ KeepsLabel geometry program written word)
        (SourceLine.statements (Text.lines source.toList)) program.words := by
  have isOf := of_assemble assembled
  refine ⟨isOf.base_add_size, isOf.label_lt, fun machine => isOf.loaded, ?_⟩
  have encoded := (List.forall₂_and_left _ _).mpr ⟨fun written member => member, isOf.encoded⟩
  apply encoded.imp
  rintro written word ⟨member, statement, rfl, isWord⟩
  exact ⟨keepsMnemonic_of_encode isWord, isOf.keepsLabel member isWord⟩

/-- A jump over a word, spelled in either case, on a standard machine. -/
theorem assemble_agrees_jump :
    ∃ program : Program, assemble {} "jmp end\nnop\nEnd: hlt" = .ok program ∧
      program.addressOf? "End" = some 63 ∧
      ∃ machine : Machine {}, machine.Reachable ∧ machine.base = program.base ∧
        machine.view.main machine.counter = 0x2000000002#40 ∧
        machine.step.1 = .ok (.wide .jmp 2) ∧ machine.step.2.view.counter = 63 := by
  have assembled : assemble {} "jmp end\nnop\nEnd: hlt" =
      .ok ⟨61, [0x2000000002#40, 0x0000000000#40, 0xFF00000000#40], .ofList [("END", 2)]⟩ := by
    decide +kernel
  have written : SourceLine.statements (Text.lines "jmp end\nnop\nEnd: hlt".toList) =
      [("JMP".toList, ["END".toList]), ("NOP".toList, []), ("HLT".toList, [])] := by
    decide +kernel
  have built : Machine.build? {} = .ok (.fresh Geometry.valid_standard) := rfl
  obtain ⟨-, -, loads, statements⟩ := assemble_agrees assembled
  obtain ⟨machine, loaded, base, words⟩ := loads _ (.built built)
  have reachable := Machine.Reachable.loadProgram (.built built) loaded
  have view := ((Machine.represents_fresh Geometry.valid_standard).loadProgram loaded).view_eq
  have running : machine.state = .running := congrArg WordMachine.state view
  have counter : machine.counter = 61 := congrArg WordMachine.counter view
  have word : machine.view.main machine.counter = 0x2000000002#40 := by
    rw [counter, view]
    decide +kernel
  rw [written] at statements
  cases statements with
  | cons first _ =>
      obtain ⟨inside, labelled⟩ := first.2 .jmp "END".toList [] 63 (by decide) (by decide) rfl
        (by decide +kernel)
      obtain ⟨operand, -, after⟩ := labelled machine reachable running base word
      refine ⟨_, assembled, by decide +kernel, machine, reachable, base, word, ?_, ?_⟩
      · rw [reachable.represents.step.1, view]
        decide +kernel
      · rw [after]
        rfl

end Program

end BitSerial
