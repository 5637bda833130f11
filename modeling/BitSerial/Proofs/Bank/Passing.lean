import BitSerial.Bank.Error
import BitSerial.Proofs.Bank.Words

/-!
# Banks with a word let past

Reading and writing a word both wait for it and let it pass its channel's head.  What the
bank is like afterwards is the same for both, but for the word itself: its channel stands
one word further on, and everything else is as it was.
-/

namespace BitSerial.Bank

variable {channels words : Nat} {bank : Bank channels words}

/-- Banks that pulses alone only turn. -/
def AtRest (bank : Bank channels words) : Prop :=
  ∀ channel, (bank.line channel).Settled

/-- A bank of which one word, perhaps exchanged, has been let past the head. -/
structure Passed (channel : Fin channels) (word : Fin words) (before after : Bank channels words) :
    Prop where
  name : after.name = before.name
  order : after.order = before.order
  rest : after.AtRest
  position : after.position channel = (word * 40 + 40) % (words * 40)
  channels : ∀ other, other ≠ channel → after.line other = before.line other
  words : ∀ otherChannel otherWord, (otherChannel, otherWord) ≠ (channel, word) →
    after.peekWord otherChannel otherWord = before.peekWord otherChannel otherWord

theorem AtRest.keeps (rest : bank.AtRest) : bank.Keeps bank.peekWord :=
  ⟨rest, fun _ _ => rfl⟩

/-! ## One word exchanged -/

@[simp]
theorem exchange_self (channel : Fin channels) (word : Fin words) (value : Word)
    (content : Fin channels → Fin words → Word) :
    exchange channel word value content channel word = value := by
  rw [exchange, Function.update_self, Function.update_self]

theorem exchange_of_ne {channel other : Fin channels} {word otherWord : Fin words}
    (apart : (other, otherWord) ≠ (channel, word)) (value : Word)
    (content : Fin channels → Fin words → Word) :
    exchange channel word value content other otherWord = content other otherWord := by
  by_cases same : other = channel
  · subst same
    have apartWord : otherWord ≠ word := fun sameWord => apart (by rw [sameWord])
    rw [exchange, Function.update_self, Function.update_of_ne apartWord]
  · rw [exchange, Function.update_of_ne same]

/-! ## Writing and reading -/

theorem peekWord_writeWord (rest : bank.AtRest) (channel : Fin channels) (word : Fin words)
    (value : Word) : (bank.writeWord channel word value).peekWord channel word = value := by
  rw [(rest.keeps.writeWord channel word value).word, exchange_self]

theorem passed_writeWord (rest : bank.AtRest) (channel : Fin channels) (word : Fin words)
    (value : Word) : Passed channel word bank (bank.writeWord channel word value) where
  name := rfl
  order := rfl
  rest := (rest.keeps.writeWord channel word value).settled
  position := bank.position_writeWord channel word value
  channels other apart := by
    rw [writeWord, line_modifyLine_of_ne _ apart, align, line_modifyLine_of_ne _ apart]
  words other otherWord apart := by
    rw [(rest.keeps.writeWord channel word value).word, exchange_of_ne apart]

theorem keeps_readWord (rest : bank.AtRest) (channel : Fin channels) (word : Fin words) :
    (bank.readWord channel word).2.Keeps bank.peekWord := by
  rw [rest.keeps.readWord]
  exact rest.keeps.advance channel _

/-- Reading moves no word. -/
theorem peekWord_readWord (rest : bank.AtRest) (channel : Fin channels) (word : Fin words) :
    (bank.readWord channel word).2.peekWord = bank.peekWord := by
  funext other otherWord
  exact (keeps_readWord rest channel word).word other otherWord

theorem passed_readWord (rest : bank.AtRest) (channel : Fin channels) (word : Fin words) :
    Passed channel word bank (bank.readWord channel word).2 where
  name := rfl
  order := rfl
  rest := (keeps_readWord rest channel word).settled
  position := bank.position_readWord channel word
  channels other apart := by
    rw [rest.keeps.readWord]
    exact line_modifyLine_of_ne bank apart _
  words other otherWord _ := by rw [peekWord_readWord rest]

/-! ## Places given by number -/

/-- Numbers in range are admitted. -/
theorem place?_of_inside (bank : Bank channels words) {channel word : Nat}
    (channelInside : channel < channels) (wordInside : word < words) :
    bank.place? channel word = .ok (⟨channel, channelInside⟩, ⟨word, wordInside⟩) := by
  rw [place?, channel?, dif_pos channelInside]
  exact dif_pos wordInside

variable {α : Type} (act : Fin channels → Fin words → α)

theorem at?_of_inside (bank : Bank channels words) (channel : Fin channels) (word : Fin words) :
    bank.at? channel word act = .ok (act channel word) := by
  rw [at?, bank.place?_of_inside channel.isLt word.isLt]
  rfl

theorem at?_of_noChannel (bank : Bank channels words) {channel : Nat}
    (outside : channels ≤ channel) (word : Nat) :
    bank.at? channel word act = .error (.noChannel bank.name channel channels) := by
  simp [at?, place?, channel?, Except.map, Nat.not_lt_of_le outside]

theorem at?_of_noWord (bank : Bank channels words) {channel word : Nat}
    (inside : channel < channels) (outside : words ≤ word) :
    bank.at? channel word act = .error (.noWord bank.name word words) := by
  simp [at?, place?, channel?, Except.map, inside, Nat.not_lt_of_le outside]

end BitSerial.Bank
