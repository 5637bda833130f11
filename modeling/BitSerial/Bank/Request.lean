import BitSerial.Bank.Error

/-!
# Requests to a bank

Everything a bank can be asked for from outside, as data.  A request whose
numbers address nothing is refused and changes nothing.
-/

namespace BitSerial.Bank

/-- Something to ask of a bank, channels and words given by number. -/
inductive Request
  /-- Pulse a channel once. -/
  | pulse (channel : Nat)
  /-- Pulse a channel a number of times. -/
  | pulses (channel count : Nat)
  /-- Bring a word to the head. -/
  | align (channel word : Nat)
  /-- Schedule a bit for the next pulse. -/
  | schedule (channel : Nat) (bit : Bit)
  /-- Look at the bit under the head. -/
  | front (channel : Nat)
  /-- Switch a channel's refresh. -/
  | setRefresh (channel : Nat) (refresh : Bool)
  /-- Ask which word is passing the head. -/
  | clock (channel : Nat)
  /-- Look at a whole line. -/
  | line (channel : Nat)
  /-- Read a word as it passes. -/
  | read (channel word : Nat)
  /-- Write over a word as it passes. -/
  | write (channel word : Nat) (value : Word)
  /-- Look at a word without a pulse. -/
  | peek (channel word : Nat)
  /-- Look at all words of a channel without a pulse. -/
  | dump (channel : Nat)
  /-- Look at all words without a pulse. -/
  | contents
  /-- Clear the bank. -/
  | reset

/-- What a bank answers. -/
inductive Reply (words : Nat)
  | done
  | bit (value : Bit)
  | bits (values : List Bit)
  | count (value : Nat)
  | line (value : DelayLine (words * 40))
  | word (value : Word)
  | dump (values : List Word)
  | contents (values : List (List Word))

variable {channels words : Nat}

/-- Act on the channel of a number. -/
def onChannel (bank : Bank channels words) (channel : Nat)
    (act : Fin channels → Reply words × Bank channels words) :
    Except BankError (Reply words) × Bank channels words :=
  match bank.channel? channel with
  | .error error => (.error error, bank)
  | .ok channel =>
      let (reply, after) := act channel
      (.ok reply, after)

/-- Act on the word of two numbers. -/
def onPlace (bank : Bank channels words) (channel word : Nat)
    (act : Fin channels → Fin words → Reply words × Bank channels words) :
    Except BankError (Reply words) × Bank channels words :=
  match bank.place? channel word with
  | .error error => (.error error, bank)
  | .ok (channel, word) =>
      let (reply, after) := act channel word
      (.ok reply, after)

/-- Answer a request. -/
def serve (request : Request) (bank : Bank channels words) :
    Except BankError (Reply words) × Bank channels words :=
  match request with
  | .pulse channel =>
      bank.onChannel channel fun channel => (.bit (bank.line channel).front, bank.pulse channel)
  | .pulses _ 0 => (.ok (.bits []), bank)
  | .pulses channel count =>
      bank.onChannel channel fun channel =>
        let (bits, line) := (bank.line channel).emit count
        (.bits bits, bank.setLine channel line)
  | .align channel word =>
      bank.onPlace channel word fun channel word =>
        (.count (bank.waitFor channel word), bank.align channel word)
  | .schedule channel bit =>
      bank.onChannel channel fun channel =>
        (.done, bank.modifyLine channel (DelayLine.schedule bit))
  | .front channel => bank.onChannel channel fun channel => (.bit (bank.line channel).front, bank)
  | .setRefresh channel refresh =>
      bank.onChannel channel fun channel =>
        (.done, bank.modifyLine channel (DelayLine.setRefresh refresh))
  | .clock channel => bank.onChannel channel fun channel => (.count (bank.clock channel), bank)
  | .line channel => bank.onChannel channel fun channel => (.line (bank.line channel), bank)
  | .read channel word =>
      bank.onPlace channel word fun channel word =>
        let (value, after) := bank.readWord channel word
        (.word value, after)
  | .write channel word value =>
      bank.onPlace channel word fun channel word => (.done, bank.writeWord channel word value)
  | .peek channel word =>
      bank.onPlace channel word fun channel word => (.word (bank.peekWord channel word), bank)
  | .dump channel => bank.onChannel channel fun channel => (.dump (bank.dump channel), bank)
  | .contents => (.ok (.contents bank.contents), bank)
  | .reset => (.ok .done, bank.reset)

end BitSerial.Bank
