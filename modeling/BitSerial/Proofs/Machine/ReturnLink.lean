import BitSerial.Proofs.Instruction.Opcodes
import BitSerial.Proofs.Machine.Reachable
import BitSerial.Proofs.Word.CarryFree

/-!
# Returns that a program writes into itself

There is no instruction that calls.  A subroutine is entered with its return
address in B, high bit first, and begins by fetching a jump without an operand,
adding B to it and storing the sum where the subroutine ends.  A fetched word is
turned round, as B is, so that the addition puts the address into the jump's
operand.
-/

namespace BitSerial

namespace WordMachine

variable {geometry : Geometry} {machine : WordMachine geometry}

/-- The address some words behind the counter, round the end of main memory. -/
def behind (machine : WordMachine geometry) (count : Nat) : Fin geometry.mainWords :=
  ⟨(machine.counter + count) % geometry.mainWords, Nat.mod_lt _ machine.counter.pos⟩

/-- Count an instruction that goes on with the next word. -/
def counted (instruction : Instruction) (machine : WordMachine geometry) : WordMachine geometry :=
  { machine with
    counter := machine.successor
    cycles := machine.cycles + 1
    last := some instruction }

theorem behind_zero (machine : WordMachine geometry) : machine.behind 0 = machine.counter :=
  Fin.ext (Nat.mod_eq_of_lt machine.counter.isLt)

theorem behind_counted (instruction : Instruction) (machine : WordMachine geometry) (count : Nat) :
    (machine.counted instruction).behind count = machine.behind (count + 1) := by
  apply Fin.ext
  show ((machine.counter + 1) % geometry.mainWords + count) % geometry.mainWords =
    (machine.counter + (count + 1)) % geometry.mainWords
  rw [Nat.mod_add_mod, Nat.add_assoc, Nat.add_comm 1]

/-- An instruction that goes on with the next word is executed and counted. -/
theorem step_of_next {instruction : Instruction} {after : WordMachine geometry}
    (running : machine.state = .running)
    (decoded : Instruction.decode (machine.main (machine.behind 0)) = .ok instruction)
    (executed : machine.execute instruction = after.next) :
    machine.step = (.ok instruction, after.counted instruction) := by
  have frame := machine.execute_frame instruction
  rw [executed] at frame
  obtain ⟨counter, cycles⟩ := frame
  rw [behind_zero] at decoded
  rw [step_of_decode running decoded executed, counted, ← cycles,
    ← successor_congr (counter : after.counter = machine.counter)]
  rfl

/-- The three words of a link stand from the counter on: fetch a word, add B, and
store the sum. -/
structure AtLink (machine : WordMachine geometry) (source place : Operand) : Prop where
  running : machine.state = .running
  fetch : Instruction.decode (machine.main (machine.behind 0)) = .ok (.wide .ldp source)
  sum : Instruction.decode (machine.main (machine.behind 1)) = .ok (.plain .add)
  store : Instruction.decode (machine.main (machine.behind 2)) = .ok (.wide .stp place)

/-- What the three steps of a link leave, whatever words they find. -/
theorem AtLink.steps {source place : Operand} (atLink : machine.AtLink source place)
    (origin target : Fin geometry.mainWords) (sourceNamed : origin.val = source.toNat)
    (placeNamed : target.val = place.toNat) :
    ∃ first second third : WordMachine geometry,
      machine.step = (.ok (.wide .ldp source), first) ∧
        first.step = (.ok (.plain .add), second) ∧
        second.step = (.ok (.wide .stp place), third) ∧
        third.main = Function.update machine.main target
          ((machine.main origin).reverse + machine.b).reverse ∧
        third.data = machine.data ∧ third.b = machine.b ∧ third.counter = machine.behind 3 := by
  obtain ⟨running, fetch, sum, store⟩ := atLink
  let first := { machine with a := (machine.main origin).reverse }.counted (.wide .ldp source)
  let second := { first with a := first.a + first.b }.counted (.plain .add)
  let third := (second.setMain target second.a.reverse).counted (.wide .stp place)
  have firstBehind (count : Nat) : first.behind count = machine.behind (count + 1) :=
    behind_counted _ { machine with a := (machine.main origin).reverse } count
  have secondBehind (count : Nat) : second.behind count = machine.behind (count + 2) :=
    (behind_counted _ { first with a := first.a + first.b } count).trans (firstBehind (count + 1))
  have thirdBehind (count : Nat) : third.behind count = machine.behind (count + 3) :=
    (behind_counted _ (second.setMain target second.a.reverse) count).trans
      (secondBehind (count + 1))
  refine ⟨first, second, third, ?_, ?_, ?_, rfl, rfl, rfl, ?_⟩
  · apply step_of_next running fetch
    rw [execute, executeWide]
    exact atMain_named sourceNamed _ machine
  · rw [← firstBehind] at sum
    exact step_of_next running sum rfl
  · rw [← secondBehind] at store
    have secondRunning : second.state = .running := running
    apply step_of_next secondRunning store
    rw [execute, executeWide]
    exact atMain_named placeNamed _ second
  · rw [← behind_zero third]
    exact thirdBehind 0

end WordMachine

namespace Machine

variable {geometry : Geometry} {machine : Machine geometry}

/-- A machine about to link a return: the link's words stand from the counter on,
the word that they fetch has some opcode and operand, and B holds what `LEB` leaves
of an operand that shares no bit with the word's. -/
structure AboutToLink (machine : Machine geometry) (source place : Operand) (opcode : BitVec 8)
    (operand link : Operand) : Prop where
  running : machine.state = .running
  fetch : Instruction.decode
    (machine.main.peekWord Bank.sole (machine.around machine.counter)) = .ok (.wide .ldp source)
  sum : Instruction.decode
    (machine.main.peekWord Bank.sole (machine.around (machine.counter + 1))) = .ok (.plain .add)
  store : Instruction.decode
    (machine.main.peekWord Bank.sole (machine.around (machine.counter + 2))) =
      .ok (.wide .stp place)
  source_lt : source.toNat < geometry.mainWords
  place_lt : place.toNat < geometry.mainWords
  word : machine.main.peekWord Bank.sole ⟨source.toNat, source_lt⟩ = Word.ofParts opcode operand
  left : ∃ prior : Machine geometry, prior.Reachable ∧
    machine.registers.peek .b = (prior.execute (.wide .leb link)).2.registers.peek .b
  apart : operand &&& link = 0

/-- B as `LEB` leaves it. -/
theorem Reachable.peek_leb (reachable : machine.Reachable) (operand : Operand) :
    (machine.execute (.wide .leb operand)).2.registers.peek .b =
      (operand.setWidth 40).reverse :=
  (reachable.represents.execute (.wide .leb operand)).represents.registers.peek .b

/-- The sum that a link stores has B's operand in it. -/
theorem AboutToLink.sum_eq {source place : Operand} {opcode : BitVec 8} {operand link : Operand}
    (about : machine.AboutToLink source place opcode operand link) :
    ((machine.view.main ⟨source.toNat, about.source_lt⟩).reverse + machine.view.b).reverse =
      Word.ofParts opcode (operand ||| link) := by
  obtain ⟨prior, reachable, left⟩ := about.left
  have b : machine.view.b = (link.setWidth 40).reverse := left.trans (reachable.peek_leb link)
  have word : machine.view.main ⟨source.toNat, about.source_lt⟩ = Word.ofParts opcode operand :=
    about.word
  rw [b, word]
  exact Word.add_turned opcode about.apart

/-- A running machine at a jump to an address that it has goes there. -/
theorem Reachable.step_jmpa (reachable : machine.Reachable) (running : machine.state = .running)
    {target : Operand} (inside : target.toNat < geometry.mainWords)
    (word : machine.main.peekWord Bank.sole machine.counter =
      Word.ofParts (Opcode.wide .jmpa).byte target) :
    machine.step.1 = .ok (.wide .jmpa target) ∧ machine.step.2.counter.val = target.toNat := by
  have decoded : Instruction.decode (machine.view.main machine.view.counter) =
      .ok (.wide .jmpa target) := by
    show Instruction.decode (machine.main.peekWord Bank.sole machine.counter) = _
    rw [word]
    exact Instruction.decode_ofParts (.wide .jmpa) target
  have jumps : machine.view.execute (.wide .jmpa target) =
      (.ok (some ⟨target.toNat, inside⟩), machine.view) := by
    rw [WordMachine.execute, WordMachine.executeWide]
    exact dif_pos inside
  have stepped := WordMachine.step_of_decode running decoded jumps
  obtain ⟨outcome, after⟩ := reachable.represents.step
  rw [stepped] at outcome after
  exact ⟨outcome, congrArg Fin.val after.counter⟩

/-- Linking a return succeeds and puts B's operand into the word that it stores,
wherever the lines stand, and changes nothing else in memory.  If what it stores is a
jump, then whenever the machine comes to it, it returns to the address that was in
B. -/
theorem Reachable.link_return (reachable : machine.Reachable) {source place : Operand}
    {opcode : BitVec 8} {operand link : Operand}
    (about : machine.AboutToLink source place opcode operand link) :
    machine.step.1 = .ok (.wide .ldp source) ∧
      machine.step.2.step.1 = .ok (.plain .add) ∧
      machine.step.2.step.2.step.1 = .ok (.wide .stp place) ∧
      let target : Fin geometry.mainWords := ⟨place.toNat, about.place_lt⟩
      let after := machine.step.2.step.2.step.2
      after.main.peekWord Bank.sole target = Word.ofParts opcode (operand ||| link) ∧
        (∀ address ≠ target,
          after.main.peekWord Bank.sole address = machine.main.peekWord Bank.sole address) ∧
        (∀ bank word, after.data.peekWord bank word = machine.data.peekWord bank word) ∧
        after.registers.peek .b = machine.registers.peek .b ∧
        after.counter.val = (machine.counter + 3) % geometry.mainWords ∧
        (opcode = (Opcode.wide .jmpa).byte → operand = 0 → link.toNat < geometry.mainWords →
          ∀ later : Machine geometry, later.Reachable → later.state = .running →
            later.counter = target →
            later.main.peekWord Bank.sole target = after.main.peekWord Bank.sole target →
            later.step.1 = .ok (.wide .jmpa link) ∧ later.step.2.counter.val = link.toNat) := by
  have represents := reachable.represents
  have atLink : machine.view.AtLink source place :=
    ⟨about.running, about.fetch, about.sum, about.store⟩
  obtain ⟨first, second, third, fetched, summed, stored, main, data, b, counter⟩ :=
    atLink.steps ⟨source.toNat, about.source_lt⟩ ⟨place.toNat, about.place_lt⟩ rfl rfl
  have one := represents.step
  rw [fetched] at one
  have two := one.2.step
  rw [summed] at two
  have three := two.2.step
  rw [stored] at three
  have after := three.2
  rw [about.sum_eq] at main
  have word : machine.step.2.step.2.step.2.main.peekWord Bank.sole ⟨place.toNat, about.place_lt⟩ =
      Word.ofParts opcode (operand ||| link) := by
    rw [after.main.word, main, Function.update_self]
  refine ⟨one.1, two.1, three.1, word, ?_, ?_, ?_, ?_, ?_⟩
  · intro address apart
    rw [after.main.word, main, Function.update_of_ne apart]
    rfl
  · intro bank word
    rw [after.data.word, data]
    rfl
  · exact (after.registers.peek .b).trans b
  · rw [after.counter, counter]
    rfl
  · rintro rfl rfl inside later laterReachable running here kept
    have only : (0 : Operand) ||| link = link := BitVec.zero_or
    rw [word, only, ← here] at kept
    exact laterReachable.step_jmpa running inside kept

/-- A loop that links its own return: the jump at the last address is fetched, given
the first address of the program and stored where it was. -/
theorem link_return_loop :
    ∃ machine : Machine {}, machine.Reachable ∧ machine.AboutToLink 63 63 0x21#8 0 59 ∧
      machine.step.2.step.2.step.2.main.peekWord Bank.sole 63 = 0x210000003B#40 ∧
      machine.step.2.step.2.step.2.step.2.counter = 59 := by
  obtain ⟨prior, reachable, loaded⟩ := exists_represents_load
    [0x040000003B#40, 0x180000003F#40, 0x0500000000#40, 0x190000003F#40, 0x2100000000#40]
    (by decide)
  have represents := loaded.step.2
  have counter := represents.counter
  have place (address : Nat) :
      prior.step.2.around address = ⟨address % 64, Nat.mod_lt _ (by decide)⟩ := rfl
  have about : prior.step.2.AboutToLink 63 63 0x21#8 0 59 := {
    running := by
      rw [represents.running]
      decide +kernel
    fetch := by
      rw [represents.main.word, place, counter]
      decide +kernel
    sum := by
      rw [represents.main.word, place, counter]
      decide +kernel
    store := by
      rw [represents.main.word, place, counter]
      decide +kernel
    source_lt := by decide
    place_lt := by decide
    word := by
      rw [represents.main.word]
      decide +kernel
    left := by
      refine ⟨prior, reachable, ?_⟩
      rw [reachable.peek_leb, represents.registers.peek]
      decide +kernel
    apart := by decide }
  obtain ⟨-, -, -, word, -, -, -, next, returns⟩ := reachable.step.link_return about
  have here : prior.step.2.step.2.step.2.step.2.counter = 63 := by
    apply Fin.ext
    rw [next, counter]
    decide +kernel
  have running : prior.step.2.step.2.step.2.step.2.state = .running := by
    rw [represents.step.2.step.2.step.2.running]
    decide +kernel
  have after := returns rfl rfl (by decide) _ reachable.step.step.step.step running here rfl
  exact ⟨prior.step.2, reachable.step, about, word, Fin.ext after.2⟩

end Machine

end BitSerial
