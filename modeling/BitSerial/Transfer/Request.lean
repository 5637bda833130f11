import BitSerial.Bank.Error
import BitSerial.Transfer

/-!
# Requests for a transfer

From outside, the place of a transfer is given by plain numbers.  A request whose
numbers address nothing is refused before anything is pulsed, so neither the bank
nor a register notices it.
-/

namespace BitSerial

/-- Registers with a bank beside them. -/
structure Bench (channels words : Nat) where
  registers : Registers
  bank : Bank channels words

namespace Transfer

/-- Something to move between registers and a bank. -/
inductive Request
  /-- Copy a register into a word; if so said, leave the register zero. -/
  | store (register : RegisterName) (channel word : Nat) (clear : Bool)
  /-- Copy a word into a register. -/
  | load (register : RegisterName) (channel word : Nat)
  /-- Put a word into S and add the bits it shares with B to A. -/
  | collate (channel word : Nat)
  /-- Copy A over a word of the program line, the bank's first channel. -/
  | storeProgram (word : Nat)

/-- The numbers of the channel and of the word that a request is about. -/
def Request.place : Request → Nat × Nat
  | .store _ channel word _ => (channel, word)
  | .load _ channel word => (channel, word)
  | .collate channel word => (channel, word)
  | .storeProgram word => (0, word)

end Transfer

namespace Bench

open Transfer

variable {channels words : Nat}

/-- Let one register exchange bits with the bank. -/
def exchange (name : RegisterName)
    (transfer : DelayLine 40 → Bank channels words → Timed (DelayLine 40 × Bank channels words))
    (bench : Bench channels words) : Timed (Bench channels words) :=
  let done := transfer (bench.registers.get name) bench.bank
  ⟨done.ticks, bench.registers.set name done.result.1, done.result.2⟩

/-- Do what a request asks for, at a place that is there. -/
def transfer (request : Request) (channel : Fin channels) (word : Fin words)
    (bench : Bench channels words) : Timed (Bench channels words) :=
  match request with
  | .store name _ _ true => bench.exchange name (storeClearing channel word)
  | .store name _ _ false => bench.exchange name (store channel word)
  | .load name _ _ => bench.exchange name (load channel word)
  | .collate _ _ =>
      let done := collate channel word bench.registers bench.bank
      ⟨done.ticks, done.result.1, done.result.2⟩
  | .storeProgram _ => bench.exchange .a (storeProgram channel word)

/-- Answer a request with the pulses it took, or refuse it. -/
def serve (request : Request) (bench : Bench channels words) :
    Except BankError Nat × Bench channels words :=
  match bench.bank.at? request.place.1 request.place.2 fun channel word =>
    bench.transfer request channel word with
  | .error error => (.error error, bench)
  | .ok done => (.ok done.ticks, done.result)

end Bench

end BitSerial
