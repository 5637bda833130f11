import BitSerial.Proofs.Transfer.ExactTransfers

/-!
# Exact collation

Collating pulses three registers and a channel in two linked turns.  On a bench at rest it
is a poke of the word into S and of the sum into A, so nothing depends on what was in S
before, and all that was in phase is so again.
-/

namespace BitSerial.Transfer

open Registers
open StreamOrder

variable {channels words : Nat} {bench : Bench channels words}

/-- A bench on which a word of the bank, which streams into a register as `shared`, has been
collated. -/
structure Collated (channel : Fin channels) (word : Fin words) (shared : Word)
    (before after : Bench channels words) : Prop where
  hold : after.registers.Hold
    (before.registers.peek .a + (shared &&& before.registers.peek .b))
    (before.registers.peek .b) shared
  addend : after.registers.b = before.registers.b
  phase : ∀ name, (after.registers.get name).head = (before.registers.get name).head
  passed : Bank.Passed channel word before.bank after.bank
  words : after.bank.peekWord = before.bank.peekWord

/-- Collating on a bench is poking S and then A. -/
theorem transfer_collate (registersRest : bench.registers.AtRest)
    (bankRest : bench.bank.AtRest) (channel : Fin channels) (word : Fin words) :
    let shared := bench.bank.order.orient (bench.bank.peekWord channel word)
    bench.transfer (.collate channel word) channel word =
      ⟨bench.bank.waitFor channel word + 80,
        (bench.registers.poke .s shared).poke .a
          (bench.registers.peek .a + (shared &&& bench.registers.peek .b)),
        (bench.bank.readWord channel word).2⟩ := by
  intro shared
  rw [Bench.transfer, collate_eq bankRest.keeps (Arithmetic.hold_peek registersRest)]

theorem serve_collate (registersRest : bench.registers.AtRest) (bankRest : bench.bank.AtRest)
    (channel : Fin channels) (word : Fin words) :
    (bench.serve (.collate channel word)).1 = .ok (bench.bank.waitFor channel word + 80) ∧
      Collated channel word (bench.bank.order.orient (bench.bank.peekWord channel word)) bench
        (bench.serve (.collate channel word)).2 := by
  have hold := Arithmetic.hold_peek registersRest
  rw [bench.serve_of_inside channel word rfl, transfer_collate registersRest bankRest]
  refine ⟨rfl, (hold.pokeS _).pokeA _, ?addend, ?phase,
    Bank.passed_readWord bankRest channel word, Bank.peekWord_readWord bankRest channel word⟩
  case addend => rw [poke_s, poke_a]
  case phase =>
    intro name
    rw [head_poke, head_poke]

/-- What is poked into S before a collation is poked over. -/
theorem serve_collate_poke (registersRest : bench.registers.AtRest)
    (bankRest : bench.bank.AtRest) (channel : Fin channels) (word : Fin words) (scratch : Word) :
    Bench.serve (.collate channel word) ⟨bench.registers.poke .s scratch, bench.bank⟩ =
      bench.serve (.collate channel word) := by
  let poked : Bench channels words := ⟨bench.registers.poke .s scratch, bench.bank⟩
  have pokedRest : poked.registers.AtRest := registersRest.poke .s scratch
  have sameBankRest : poked.bank.AtRest := bankRest
  rw [Bench.serve_of_inside _ channel word rfl, Bench.serve_of_inside _ channel word rfl,
    transfer_collate pokedRest sameBankRest, transfer_collate registersRest bankRest]
  dsimp only
  rw [poke_poke, peek_poke_of_ne _ (by decide), peek_poke_of_ne _ (by decide)]

/-- Collating is exact.  The word of the place streams into S; A gets the bits that it
shares with B added, modulo 2^40; B and every word stay, the channel is left one word on
and all else alone.  It takes eighty pulses after the wait, whatever S held before.  A place
that is not there is refused and nothing changes. -/
theorem collate_exact {bench : Bench channels words} (registersRest : bench.registers.AtRest)
    (bankRest : bench.bank.AtRest) :
    (∀ (channel : Fin channels) (word : Fin words),
        let shared :=
          lowFirst.collect (bench.bank.order.bits (bench.bank.peekWord channel word))
        ((bench.serve (.collate channel word)).1 =
            .ok (bench.bank.waitFor channel word + 80) ∧
          Collated channel word shared bench (bench.serve (.collate channel word)).2) ∧
        ∀ scratch,
          Bench.serve (.collate channel word) ⟨bench.registers.poke .s scratch, bench.bank⟩ =
            bench.serve (.collate channel word)) ∧
      ∀ channel word : Nat,
        (channels ≤ channel →
            bench.serve (.collate channel word) =
              (.error (.noChannel bench.bank.name channel channels), bench)) ∧
          (channel < channels → words ≤ word →
            bench.serve (.collate channel word) =
              (.error (.noWord bench.bank.name word words), bench)) := by
  refine ⟨?inside, ?refused⟩
  case inside =>
    intro channel word shared
    have streamed :
        shared = bench.bank.order.orient (bench.bank.peekWord channel word) := by
      rw [← collect_bits lowFirst (bench.bank.order.orient _), ← bits_eq_orient]
    rw [streamed]
    exact ⟨serve_collate registersRest bankRest channel word,
      serve_collate_poke registersRest bankRest channel word⟩
  case refused =>
    intro channel word
    exact ⟨bench.serve_of_noChannel (.collate channel word),
      bench.serve_of_noWord (.collate channel word)⟩

/-- A word of a bank that streams high bits first, collated from inside another word. -/
theorem collate_exact_midWord :
    ∃ bench : Bench 2 3, bench.registers.AtRest ∧ bench.bank.AtRest ∧
      bench.bank.order = .highFirst ∧ bench.bank.position 1 = 7 ∧
      bench.bank.peekWord 1 2 = 0x0F00000000 ∧
      bench.registers.peek .a = 1 ∧ bench.registers.peek .b = 0xAA ∧
      (bench.serve (.collate 1 2)).1 = .ok (73 + 80) ∧
      (bench.serve (.collate 1 2)).2.registers.peek .a = 0xA1 ∧
      (bench.serve (.collate 1 2)).2.registers.peek .b = 0xAA ∧
      (bench.serve (.collate 1 2)).2.registers.peek .s = 0xF0 ∧
      (bench.serve (.collate 1 2)).2.bank.position 1 = 0 ∧
      bench.serve (.collate 2 0) = (.error (.noChannel bench.bank.name 2 2), bench) := by
  obtain ⟨bank, bankRest, order, position, found⟩ :
      ∃ bank : Bank 2 3, bank.AtRest ∧ bank.order = .highFirst ∧ bank.position 1 = 7 ∧
        bank.peekWord 1 2 = 0x0F00000000 := by
    have positive : 0 < 3 := by decide
    have clear : (Bank.blank "m" .highFirst positive : Bank 2 3).Keeps fun _ _ => 0 :=
      Bank.keeps_blank "m" .highFirst positive
    have keeps := (clear.writeWord 1 2 0x0F00000000).advance 1 7
    refine ⟨_, keeps.settled, rfl, ?_, ?_⟩
    · rw [Bank.position_advance, Bank.position_writeWord]
      rfl
    · rw [keeps.word, Bank.exchange_self]
  obtain ⟨bench, registersRest, sum, addend, rfl⟩ :
      ∃ bench : Bench 2 3, bench.registers.AtRest ∧ bench.registers.peek .a = 1 ∧
        bench.registers.peek .b = 0xAA ∧ bench.bank = bank := by
    refine ⟨⟨(blank.poke .b 0xAA).poke .a 1, bank⟩, (AtRest.blank.poke .b 0xAA).poke .a 1,
      peek_poke _ .a 1, ?_, rfl⟩
    rw [peek_poke_of_ne _ (by decide), peek_poke]
  have wait : bench.bank.waitFor 1 2 = 73 := by
    rw [Bank.waitFor_eq, position]
    rfl
  have streamed : lowFirst.collect (bench.bank.order.bits 0x0F00000000) = 0xF0 := by
    rw [order]
    decide +kernel
  obtain ⟨inside, refused⟩ := collate_exact registersRest bankRest
  obtain ⟨⟨ticks, collated⟩, -⟩ := inside 1 2
  rw [wait] at ticks
  rw [found, streamed] at collated
  have total : bench.registers.peek .a + (0xF0 &&& bench.registers.peek .b) = 0xA1 := by
    rw [sum, addend]
    decide
  have added : (bench.serve (.collate 1 2)).2.registers.peek .a = _ := collated.hold.peek .a
  have kept : (bench.serve (.collate 1 2)).2.registers.peek .b = _ := collated.hold.peek .b
  refine ⟨bench, registersRest, bankRest, order, position, found, sum, addend, ticks,
    added.trans total, kept.trans addend, collated.hold.peek .s, collated.passed.position, ?_⟩
  exact (refused 2 0).1 (by decide)

end BitSerial.Transfer
