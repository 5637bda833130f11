import BitSerial.Proofs.Bank.Passing
import BitSerial.Proofs.Transfer.Words
import BitSerial.Transfer.Request

/-!
# Exact transfers

Between registers and a bank at rest a store is a writing of the word and a load is a poke
of it.  So a transfer moves one word in stream order and leaves everything else where it
was, and what is loaded from a place is what was stored there.
-/

namespace BitSerial

open StreamOrder

variable {channels words : Nat} {bench : Bench channels words}

namespace Bench

open Transfer

/-! ## Requests -/

theorem serve_of_inside (bench : Bench channels words) {request : Request}
    (channel : Fin channels) (word : Fin words)
    (place : request.place = (channel.val, word.val)) :
    bench.serve request =
      (.ok (bench.transfer request channel word).ticks,
        (bench.transfer request channel word).result) := by
  rw [serve, place, Bank.at?_of_inside]

/-- A request about a channel that is not there changes nothing. -/
theorem serve_of_noChannel (bench : Bench channels words) (request : Request)
    (outside : channels ≤ request.place.1) :
    bench.serve request =
      (.error (.noChannel bench.bank.name request.place.1 channels), bench) := by
  rw [serve, Bank.at?_of_noChannel _ _ outside]

/-- Nor does one about a word that is not there. -/
theorem serve_of_noWord (bench : Bench channels words) (request : Request)
    (inside : request.place.1 < channels) (outside : words ≤ request.place.2) :
    bench.serve request = (.error (.noWord bench.bank.name request.place.2 words), bench) := by
  rw [serve, Bank.at?_of_noWord _ _ inside outside]

theorem serve_congr {first second : Request} (place : first.place = second.place)
    (same : ∀ channel word,
      bench.transfer first channel word = bench.transfer second channel word) :
    bench.serve first = bench.serve second := by
  simp only [serve, place, same]

/-! ## Stores and loads -/

theorem exchange_store (registersRest : bench.registers.AtRest) (name : RegisterName)
    (channel : Fin channels) (word : Fin words) :
    bench.exchange name (store channel word) =
      ⟨bench.bank.waitFor channel word + 40, bench.registers,
        bench.bank.writeWord channel word
          (bench.bank.order.orient (bench.registers.peek name))⟩ := by
  rw [exchange, store_eq, DelayLine.advance_length (registersRest name),
    ← Registers.bits_peek, collect_lowFirst, Registers.set_get]

theorem exchange_storeClearing (bench : Bench channels words) (name : RegisterName)
    (channel : Fin channels) (word : Fin words) :
    bench.exchange name (storeClearing channel word) =
      ⟨bench.bank.waitFor channel word + 40, bench.registers.poke name 0,
        bench.bank.writeWord channel word
          (bench.bank.order.orient (bench.registers.peek name))⟩ := by
  rw [exchange, storeClearing_eq, ← Registers.bits_peek, collect_lowFirst, Registers.poke,
    bits_zero]

theorem exchange_load (bankRest : bench.bank.AtRest) (name : RegisterName)
    (channel : Fin channels) (word : Fin words) :
    bench.exchange name (load channel word) =
      ⟨bench.bank.waitFor channel word + 40,
        bench.registers.poke name (bench.bank.order.orient (bench.bank.peekWord channel word)),
        (bench.bank.readWord channel word).2⟩ := by
  have found : (bench.bank.readWord channel word).1 = bench.bank.peekWord channel word := by
    rw [bankRest.keeps.readWord]
  rw [exchange, load_eq, found, bits_eq_orient, Registers.poke]

theorem exchange_storeProgram (bankRest : bench.bank.AtRest) (name : RegisterName)
    (channel : Fin channels) (word : Fin words) :
    bench.exchange name (storeProgram channel word) =
      bench.exchange name (store channel word) := by
  rw [exchange, storeProgram_eq channel word _ (bankRest channel), exchange]

end Bench

namespace Transfer

open Registers

/-! ## What a transfer has done -/

/-- A bench on which a register's word has been put into the bank. -/
structure Stored (name : RegisterName) (channel : Fin channels) (word : Fin words) (clear : Bool)
    (before after : Bench channels words) : Prop where
  stream : after.bank.order.bits (after.bank.peekWord channel word) =
    lowFirst.bits (before.registers.peek name)
  value : after.bank.peekWord channel word =
    before.bank.order.orient (before.registers.peek name)
  passed : Bank.Passed channel word before.bank after.bank
  kept : clear = false → after.registers = before.registers
  cleared : clear = true → Overwritten name 0 before.registers after.registers

/-- A bench on which a register has got a word of the bank. -/
structure Loaded (name : RegisterName) (channel : Fin channels) (word : Fin words)
    (before after : Bench channels words) : Prop where
  stream : lowFirst.bits (after.registers.peek name) =
    before.bank.order.bits (before.bank.peekWord channel word)
  registers : Overwritten name (before.bank.order.orient (before.bank.peekWord channel word))
    before.registers after.registers
  passed : Bank.Passed channel word before.bank after.bank
  words : after.bank.peekWord = before.bank.peekWord

theorem stored_of_writeWord (bankRest : bench.bank.AtRest) {name : RegisterName}
    {channel : Fin channels} {word : Fin words} {clear : Bool} {registers : Registers}
    (kept : clear = false → registers = bench.registers)
    (cleared : clear = true → Overwritten name 0 bench.registers registers) :
    Stored name channel word clear bench
      ⟨registers, bench.bank.writeWord channel word
        (bench.bank.order.orient (bench.registers.peek name))⟩ where
  stream := by
    rw [Bank.peekWord_writeWord bankRest, (Bank.passed_writeWord bankRest _ _ _).order,
      bits_eq_orient, orient_orient]
  value := Bank.peekWord_writeWord bankRest channel word _
  passed := Bank.passed_writeWord bankRest channel word _
  kept := kept
  cleared := cleared

theorem serve_store (registersRest : bench.registers.AtRest) (bankRest : bench.bank.AtRest)
    (name : RegisterName) (channel : Fin channels) (word : Fin words) (clear : Bool) :
    (bench.serve (.store name channel word clear)).1 =
        .ok (bench.bank.waitFor channel word + 40) ∧
      Stored name channel word clear bench (bench.serve (.store name channel word clear)).2 := by
  rw [bench.serve_of_inside channel word rfl]
  cases clear with
  | false =>
      rw [Bench.transfer, Bench.exchange_store registersRest]
      exact ⟨rfl, stored_of_writeWord bankRest (fun _ => rfl) nofun⟩
  | true =>
      rw [Bench.transfer, Bench.exchange_storeClearing]
      exact ⟨rfl, stored_of_writeWord bankRest nofun fun _ => registersRest.overwritten name 0⟩

theorem serve_load (registersRest : bench.registers.AtRest) (bankRest : bench.bank.AtRest)
    (name : RegisterName) (channel : Fin channels) (word : Fin words) :
    (bench.serve (.load name channel word)).1 = .ok (bench.bank.waitFor channel word + 40) ∧
      Loaded name channel word bench (bench.serve (.load name channel word)).2 := by
  rw [bench.serve_of_inside channel word rfl, Bench.transfer, Bench.exchange_load bankRest]
  refine ⟨rfl, ?_, registersRest.overwritten name _, Bank.passed_readWord bankRest channel word,
    Bank.peekWord_readWord bankRest channel word⟩
  rw [peek_poke, ← bits_eq_orient]

theorem Stored.rest {name : RegisterName} {channel : Fin channels} {word : Fin words}
    {clear : Bool} {after : Bench channels words}
    (stored : Stored name channel word clear bench after)
    (registersRest : bench.registers.AtRest) : after.registers.AtRest := by
  cases clear with
  | false => rwa [stored.kept rfl]
  | true => exact (stored.cleared rfl).rest

/-- What was turned round on its way into the bank is turned back on its way out. -/
theorem Stored.peek_load {name : RegisterName} {channel : Fin channels} {word : Fin words}
    {clear : Bool} {after : Bench channels words}
    (stored : Stored name channel word clear bench after)
    (registersRest : bench.registers.AtRest) (other : RegisterName) :
    (after.serve (.load other channel word)).2.registers.peek other =
      bench.registers.peek name := by
  have loaded := (serve_load (stored.rest registersRest) stored.passed.rest other channel word).2
  rw [loaded.registers.word, stored.value, stored.passed.order, orient_orient]

/-- With refresh on, the program line is stored to as any other channel is. -/
theorem serve_storeProgram (bankRest : bench.bank.AtRest) (word : Nat) :
    bench.serve (.storeProgram word) = bench.serve (.store .a 0 word false) :=
  Bench.serve_congr rfl fun channel word => Bench.exchange_storeProgram bankRest .a channel word

theorem rest_serve_storeProgram (registersRest : bench.registers.AtRest)
    (bankRest : bench.bank.AtRest) (word : Nat) :
    (bench.serve (.storeProgram word)).2.bank.AtRest := by
  rw [serve_storeProgram bankRest]
  rcases Nat.lt_or_ge 0 channels with channelInside | noChannel
  · rcases Nat.lt_or_ge word words with wordInside | noWord
    · exact (serve_store registersRest bankRest .a ⟨0, channelInside⟩ ⟨word, wordInside⟩
        false).2.passed.rest
    · rw [bench.serve_of_noWord (.store .a 0 word false) channelInside noWord]
      exact bankRest
  · rw [bench.serve_of_noChannel (.store .a 0 word false) noChannel]
    exact bankRest

/-- Transfers move exactly one word in stream order.  A store makes the word of its place
stream as the register does, and leaves the register as it is or zero; a load makes the
register stream as the word does, and leaves all words.  Both take forty pulses after the
wait and touch nothing else, so a load after a store gives the stored word to any register.
Storing to the program line is storing A to the first channel, with refresh on afterwards.
A place that is not there is refused and nothing changes. -/
theorem transfers_exact {bench : Bench channels words} (registersRest : bench.registers.AtRest)
    (bankRest : bench.bank.AtRest) (name : RegisterName) :
    (∀ (channel : Fin channels) (word : Fin words),
        (∀ clear,
          (bench.serve (.store name channel word clear)).1 =
              .ok (bench.bank.waitFor channel word + 40) ∧
            Stored name channel word clear bench
              (bench.serve (.store name channel word clear)).2) ∧
          ((bench.serve (.load name channel word)).1 =
              .ok (bench.bank.waitFor channel word + 40) ∧
            Loaded name channel word bench (bench.serve (.load name channel word)).2) ∧
          ∀ clear other,
            ((bench.serve (.store name channel word clear)).2.serve
                (.load other channel word)).2.registers.peek other =
              bench.registers.peek name) ∧
      (∀ word, bench.serve (.storeProgram word) = bench.serve (.store .a 0 word false) ∧
        (bench.serve (.storeProgram word)).2.bank.AtRest) ∧
      ∀ request : Request,
        (channels ≤ request.place.1 →
            bench.serve request =
              (.error (.noChannel bench.bank.name request.place.1 channels), bench)) ∧
          (request.place.1 < channels → words ≤ request.place.2 →
            bench.serve request =
              (.error (.noWord bench.bank.name request.place.2 words), bench)) := by
  refine ⟨fun channel word => ⟨?stores, ?loads, ?loadsBack⟩, ?program, ?refused⟩
  case stores => exact serve_store registersRest bankRest name channel word
  case loads => exact serve_load registersRest bankRest name channel word
  case loadsBack =>
    intro clear other
    obtain ⟨-, stored⟩ := serve_store registersRest bankRest name channel word clear
    exact stored.peek_load registersRest other
  case program =>
    intro word
    exact ⟨serve_storeProgram bankRest word, rest_serve_storeProgram registersRest bankRest word⟩
  case refused =>
    intro request
    exact ⟨bench.serve_of_noChannel request, bench.serve_of_noWord request⟩

/-- A five stored, with the register cleared, into a bank that streams high bits first and
has its head inside a word, and loaded into another register; then a store beside the bank. -/
theorem transfers_exact_midWord :
    ∃ bench : Bench 2 3, bench.registers.AtRest ∧ bench.bank.AtRest ∧
      bench.bank.order = .highFirst ∧ bench.bank.position 1 = 7 ∧
      bench.registers.peek .a = 5 ∧
      (bench.serve (.store .a 1 2 true)).1 = .ok (73 + 40) ∧
      (bench.serve (.store .a 1 2 true)).2.bank.peekWord 1 2 = 0xA000000000 ∧
      (bench.serve (.store .a 1 2 true)).2.registers.peek .a = 0 ∧
      ((bench.serve (.store .a 1 2 true)).2.serve (.load .b 1 2)).2.registers.peek .b = 5 ∧
      bench.serve (.store .a 1 3 true) = (.error (.noWord bench.bank.name 3 3), bench) := by
  obtain ⟨bank, bankRest, order, position⟩ :
      ∃ bank : Bank 2 3, bank.AtRest ∧ bank.order = .highFirst ∧ bank.position 1 = 7 := by
    have positive : 0 < 3 := by decide
    refine ⟨(Bank.blank "m" .highFirst positive).modifyLine 1 (DelayLine.advance 7),
      ((Bank.keeps_blank "m" .highFirst positive).advance 1 7).settled, rfl, ?_⟩
    rw [Bank.position_advance, Bank.position_blank]
  obtain ⟨bench, registersRest, value, rfl⟩ :
      ∃ bench : Bench 2 3, bench.registers.AtRest ∧ bench.registers.peek .a = 5 ∧
        bench.bank = bank :=
    ⟨⟨blank.poke .a 5, bank⟩, AtRest.blank.poke .a 5, peek_poke blank .a 5, rfl⟩
  have wait : bench.bank.waitFor 1 2 = 73 := by
    rw [Bank.waitFor_eq, position]
    rfl
  have turned : bench.bank.order.orient 5 = 0xA000000000 := by
    rw [order]
    decide +kernel
  obtain ⟨inside, -, refused⟩ := transfers_exact registersRest bankRest .a
  obtain ⟨stores, -, loadsBack⟩ := inside 1 2
  obtain ⟨ticks, stored⟩ := stores true
  refine ⟨bench, registersRest, bankRest, order, position, value, ?_, ?_, ?_, ?_, ?_⟩
  · rw [← wait]
    exact ticks
  · rw [← turned, ← value]
    exact stored.value
  · exact (stored.cleared rfl).word
  · rw [← value]
    exact loadsBack true .b
  · exact (refused (.store .a 1 3 true)).2 (by decide) (by decide)

end Transfer

end BitSerial
