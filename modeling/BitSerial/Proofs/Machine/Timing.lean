import BitSerial.Proofs.Arithmetic.Timing
import BitSerial.Proofs.Machine.ExactLoading

/-!
# What instructions take

Three numbers decide how many pulses an instruction takes: the word at the head of the
program line, the place under the head of a data bank, and the ones in B.  Nothing else
about the machine matters, and nothing is assumed of its registers and data banks, not
even that they are at rest.
-/

namespace BitSerial

/-- Whether an instruction exchanges a word with the program line. -/
def Instruction.usesMain : Instruction → Bool
  | .wide .ldp _ | .wide .stp _ => true
  | _ => false

namespace Machine

variable {geometry : Geometry} {machine : Machine geometry}

/-! ## The table -/

/-- Pulses until the word at the counter is at the head of the program line. -/
def fetchWait (machine : Machine geometry) : Nat :=
  40 * ((machine.counter + geometry.mainWords - machine.clock) % geometry.mainWords)

/-- Pulses until a data word is at the head of its bank, if there is such a bank. -/
def dataWait (machine : Machine geometry) (address : DataAddress) : Nat :=
  if inside : address.bank.toNat < geometry.dataBanks then
    (40 * address.word.toNat + 40 * geometry.bankWords -
      machine.data.position ⟨address.bank.toNat, inside⟩) % (40 * geometry.bankWords)
  else
    0

/-- Pulses from behind the word at the counter until a program word has been exchanged. -/
def exchangePulses (machine : Machine geometry) (address : Nat) : Nat :=
  40 * ((address + geometry.mainWords - (machine.counter + 1)) % geometry.mainWords) + 40

/-- Pulses that executing an instruction takes. -/
def cost (machine : Machine geometry) : Instruction → Nat
  | .plain .nop | .plain .hlt => 0
  | .plain .shl => 1
  | .plain .neg | .plain .shr => 80
  | .plain .mul => 80 + 40 * (machine.registers.peek .b).cpop.toNat
  | .plain .add | .plain .and | .plain .orr | .plain .xor | .plain .pra => 40
  | .wide .jmp _ | .wide .jmpa _ => 0
  | .wide .lai _ | .wide .lbi _ | .wide .lea _ | .wide .leb _ | .wide .rnd _ | .wide .jza _
  | .wide .jna _ => 40
  | .wide .mla count => 40 * count.toNat
  | .wide .ldp address | .wide .stp address => machine.exchangePulses address.toNat
  | .data .col address => machine.dataWait address + 80
  | .data _ address => machine.dataWait address + 40

/-- The word at the head of the program line behind an instruction: the one that follows
what passed last. -/
def clockBehind (machine : Machine geometry) : Instruction → Nat
  | .wide .ldp address | .wide .stp address => (address.toNat + 1) % geometry.mainWords
  | _ => (machine.counter + 1) % geometry.mainWords

/-! ## The program line stands between words -/

/-- The program line stands between two words. -/
def Aligned (machine : Machine geometry) : Prop :=
  machine.main.position Bank.sole % 40 = 0

/-- What executing an instruction makes of the program line and the time: the ticks are
not counted yet, and if it succeeds it took so many pulses and left so many-th word at
the head. -/
structure Takes (executed : Executed geometry) (ticks : UInt64) (pulses clock : Nat) : Prop where
  ticks : executed.2.ticks = ticks
  aligned : executed.2.Aligned
  flow : ∀ flow, executed.1 = .ok flow → flow.ticks = pulses ∧ executed.2.clock = clock

theorem takes_proceed (aligned : machine.Aligned) (pulses : Nat) :
    Takes (proceed pulses machine) machine.ticks pulses machine.clock where
  ticks := rfl
  aligned := aligned
  flow := by
    rintro _ ⟨⟩
    exact ⟨rfl, rfl⟩

theorem takes_error (aligned : machine.Aligned) (error : StepError) (pulses clock : Nat) :
    Takes (.error error, machine) machine.ticks pulses clock where
  ticks := rfl
  aligned := aligned
  flow := nofun

theorem takes_jumpTo (aligned : machine.Aligned) (address pulses : Nat) :
    Takes (machine.jumpTo address pulses) machine.ticks pulses machine.clock := by
  rw [jumpTo]
  split
  · constructor
    · rfl
    · exact aligned
    · rintro _ ⟨⟩
      exact ⟨rfl, rfl⟩
  · exact takes_error aligned _ _ _

theorem takes_onRegisters (aligned : machine.Aligned) {operation : Registers → Timed Registers}
    {pulses : Nat} (pulsed : (operation machine.registers).ticks = pulses) :
    Takes (machine.onRegisters operation) machine.ticks pulses machine.clock := by
  subst pulsed
  have unmoved : ({ machine with registers := (operation machine.registers).result } :
    Machine geometry).Aligned := aligned
  exact takes_proceed unmoved _

theorem takes_onRegister (aligned : machine.Aligned) (name : RegisterName)
    {operation : DelayLine 40 → Timed (DelayLine 40)} {pulses : Nat}
    (pulsed : (operation (machine.registers.get name)).ticks = pulses) :
    Takes (machine.onRegister name operation) machine.ticks pulses machine.clock := by
  subst pulsed
  have unmoved : ({ machine with
    registers := machine.registers.set name (operation (machine.registers.get name)).result } :
      Machine geometry).Aligned := aligned
  exact takes_proceed unmoved _

theorem takes_onData (aligned : machine.Aligned) (name : RegisterName)
    {transfer : DelayLine 40 → Bank geometry.dataBanks geometry.bankWords →
      Timed (DelayLine 40 × Bank geometry.dataBanks geometry.bankWords)} {pulses : Nat}
    (pulsed : (transfer (machine.registers.get name) machine.data).ticks = pulses) :
    Takes (machine.onData name transfer) machine.ticks pulses machine.clock := by
  subst pulsed
  generalize moved : transfer (machine.registers.get name) machine.data = done
  have unmoved : ({ machine with
    registers := machine.registers.set name done.result.1
    data := done.result.2 } : Machine geometry).Aligned := aligned
  rw [onData, moved]
  exact takes_proceed unmoved _

theorem takes_onMain
    {transfer : DelayLine 40 → Bank 1 geometry.mainWords →
      Timed (DelayLine 40 × Bank 1 geometry.mainWords)} {pulses word : Nat}
    (pulsed : (transfer machine.registers.a machine.main).ticks = pulses)
    (behind : (transfer machine.registers.a machine.main).result.2.position Bank.sole =
      (word * 40 + 40) % (geometry.mainWords * 40)) :
    Takes (machine.onMain transfer) machine.ticks pulses ((word + 1) % geometry.mainWords) := by
  subst pulsed
  generalize moved : transfer machine.registers.a machine.main = done at behind
  obtain ⟨aligned, clock⟩ := Bank.clock_of_behind behind
  rw [onMain, moved]
  constructor
  · rfl
  · exact aligned
  · rintro _ ⟨⟩
    exact ⟨rfl, clock⟩

theorem takes_print (aligned : machine.Aligned) :
    Takes machine.print machine.ticks 40 machine.clock := by
  have pulsed := Arithmetic.ticks_scan machine.registers
  rw [print]
  generalize Arithmetic.scan machine.registers = scanned at pulsed ⊢
  rw [← pulsed]
  have unmoved : ({ machine with
    registers := scanned.result.2
    output := machine.output.push scanned.result.1.value } : Machine geometry).Aligned := aligned
  exact takes_proceed unmoved _

theorem takes_jumpIf (aligned : machine.Aligned) (condition : Arithmetic.Scan → Bool)
    (address : Nat) : Takes (machine.jumpIf condition address) machine.ticks 40 machine.clock := by
  have pulsed := Arithmetic.ticks_scan machine.registers
  rw [jumpIf]
  generalize Arithmetic.scan machine.registers = scanned at pulsed ⊢
  rw [← pulsed]
  have unmoved : ({ machine with registers := scanned.result.2 } : Machine geometry).Aligned :=
    aligned
  split
  · exact takes_jumpTo unmoved address _
  · exact takes_proceed unmoved _

/-! ## What instructions take -/

theorem takes_executePlain (aligned : machine.Aligned) (op : PlainOp) :
    Takes (machine.executePlain op) machine.ticks (machine.cost (.plain op)) machine.clock := by
  cases op with
  | nop => exact takes_proceed aligned 0
  | add => exact takes_onRegisters aligned (Arithmetic.ticks_add _)
  | neg => exact takes_onRegisters aligned (Arithmetic.ticks_negate _)
  | shl => exact takes_onRegisters aligned (Arithmetic.ticks_shiftLeft _)
  | shr => exact takes_onRegisters aligned (Arithmetic.ticks_shiftRight _)
  | and | orr | xor => exact takes_onRegisters aligned (Arithmetic.ticks_logic _ _)
  | mul => exact takes_onRegisters aligned (Arithmetic.ticks_multiply _)
  | pra => exact takes_print aligned
  | hlt =>
      have unmoved : ({ machine with state := .halted } : Machine geometry).Aligned := aligned
      exact takes_proceed unmoved 0

/-- Right behind the word at the counter, the wait for another counts from there. -/
theorem waitFor_main (aligned : machine.Aligned)
    (fetched : machine.clock = (machine.counter + 1) % geometry.mainWords)
    (word : Fin geometry.mainWords) :
    machine.main.waitFor Bank.sole word + 40 = machine.exchangePulses word := by
  have inside := machine.counter.isLt
  have same : (word + geometry.mainWords - (machine.counter + 1) % geometry.mainWords) %
      geometry.mainWords =
      (word + geometry.mainWords - (machine.counter + 1)) % geometry.mainWords := by
    by_cases last : machine.counter + 1 = geometry.mainWords
    · rw [last, Nat.mod_self, Nat.sub_zero, Nat.add_mod_right, Nat.add_sub_cancel]
    · have before : machine.counter + 1 < geometry.mainWords := by omega
      rw [Nat.mod_eq_of_lt before]
  have clock : machine.main.clock Bank.sole = (machine.counter + 1) % geometry.mainWords := fetched
  rw [Bank.waitFor_of_aligned aligned, clock, same, exchangePulses, Nat.mul_comm]

theorem takes_executeWide (aligned : machine.Aligned)
    (fetched : machine.clock = (machine.counter + 1) % geometry.mainWords) (op : WideOp)
    (operand : Operand) :
    Takes (machine.executeWide op operand) machine.ticks (machine.cost (.wide op operand))
      (machine.clockBehind (.wide op operand)) := by
  have onward {executed : Executed geometry} {pulses : Nat}
      (takes : Takes executed machine.ticks pulses machine.clock) :
      Takes executed machine.ticks pulses ((machine.counter + 1) % geometry.mainWords) :=
    fetched ▸ takes
  cases op with
  | lai | lbi | lea | leb => exact onward (takes_onRegister aligned _ rfl)
  | rnd => exact onward (takes_onRegisters aligned (Arithmetic.ticks_round _ _))
  | mla => exact onward (takes_onRegisters aligned (Arithmetic.ticks_multiplyAdd _ _))
  | ldp =>
      rw [executeWide, mainPlace?]
      by_cases inside : operand.toNat < geometry.mainWords
      · rw [dif_pos inside]
        exact takes_onMain (waitFor_main aligned fetched ⟨operand.toNat, inside⟩)
          (Transfer.position_load _ _ _ _)
      · rw [dif_neg inside]
        exact takes_error aligned _ _ _
  | stp =>
      rw [executeWide, mainPlace?]
      by_cases inside : operand.toNat < geometry.mainWords
      · rw [dif_pos inside]
        exact takes_onMain (waitFor_main aligned fetched ⟨operand.toNat, inside⟩)
          (Transfer.position_storeProgram _ _ _ _)
      · rw [dif_neg inside]
        exact takes_error aligned _ _ _
  | jmp | jmpa => exact onward (takes_jumpTo aligned _ 0)
  | jza | jna =>
      rw [executeWide]
      exact onward (takes_jumpIf aligned _ _)

/-- The wait of a data word that its bank has. -/
theorem waitFor_data {address : DataAddress} {bank : Fin geometry.dataBanks}
    {word : Fin geometry.bankWords} (place : machine.dataPlace? address = .ok (bank, word)) :
    machine.data.waitFor bank word = machine.dataWait address := by
  rw [dataPlace?] at place
  split at place
  · rename_i inside
    cases place
    rw [dataWait, dif_pos inside.1, Bank.waitFor_eq, Nat.mul_comm 40, Nat.mul_comm 40]
  · cases place

theorem takes_collate (aligned : machine.Aligned) (bank : Fin geometry.dataBanks)
    (word : Fin geometry.bankWords) :
    Takes (machine.collate bank word) machine.ticks (machine.data.waitFor bank word + 80)
      machine.clock := by
  have pulsed : (Transfer.collate bank word machine.registers machine.data).ticks =
      machine.data.waitFor bank word + 80 := rfl
  rw [collate]
  generalize Transfer.collate bank word machine.registers machine.data = done at pulsed ⊢
  rw [← pulsed]
  have unmoved : ({ machine with registers := done.result.1, data := done.result.2 } :
      Machine geometry).Aligned := aligned
  exact takes_proceed unmoved _

theorem takes_executeData (aligned : machine.Aligned) (op : DataOp) (address : DataAddress) :
    Takes (machine.executeData op address) machine.ticks (machine.cost (.data op address))
      machine.clock := by
  rw [executeData]
  split
  · exact takes_error aligned _ _ _
  · rename_i bank word place
    have wait := waitFor_data place
    cases op with
    | col =>
        rw [cost, ← wait]
        exact takes_collate aligned bank word
    | sto | stb | stc | lda | ldb =>
        rw [cost, ← wait]
        · exact takes_onData aligned _ rfl
        · nofun

/-- Executing an instruction right behind its word takes what the table says. -/
theorem takes_execute (aligned : machine.Aligned)
    (fetched : machine.clock = (machine.counter + 1) % geometry.mainWords)
    (instruction : Instruction) :
    Takes (machine.execute instruction) machine.ticks (machine.cost instruction)
      (machine.clockBehind instruction) := by
  cases instruction with
  | plain op =>
      have takes := takes_executePlain aligned op
      rwa [fetched] at takes
  | wide op operand => exact takes_executeWide aligned fetched op operand
  | data op address =>
      have takes := takes_executeData aligned op address
      rwa [fetched] at takes

end Machine

end BitSerial
