import BitSerial.Bank

/-!
# Addressing a bank by number

From outside, channels and words are plain numbers.  A channel that is not
there is reported before a word that is not there.
-/

namespace BitSerial

/-- A number that addresses nothing in a bank. -/
inductive BankError
  | noChannel (bank : String) (channel channels : Nat)
  | noWord (bank : String) (word words : Nat)
  deriving DecidableEq

/-- The text of a refused address. -/
def BankError.message : BankError → String
  | .noChannel bank channel channels =>
      bank ++ s!": channel {channel} out of range ({channels} channels)"
  | .noWord bank word words => bank ++ s!": word {word} out of range ({words} words per channel)"

namespace Bank

variable {channels words : Nat}

/-- The channel of a number. -/
def channel? (bank : Bank channels words) (channel : Nat) : Except BankError (Fin channels) :=
  if inside : channel < channels then .ok ⟨channel, inside⟩
  else .error (.noChannel bank.name channel channels)

/-- The word of two numbers, its channel checked first. -/
def place? (bank : Bank channels words) (channel word : Nat) :
    Except BankError (Fin channels × Fin words) :=
  match bank.channel? channel with
  | .error error => .error error
  | .ok channel =>
      if inside : word < words then .ok (channel, ⟨word, inside⟩)
      else .error (.noWord bank.name word words)

/-- Do something at the word of two numbers. -/
def at? {α : Type} (bank : Bank channels words) (channel word : Nat)
    (act : Fin channels → Fin words → α) : Except BankError α :=
  (bank.place? channel word).map fun place => act place.1 place.2

end Bank

end BitSerial
