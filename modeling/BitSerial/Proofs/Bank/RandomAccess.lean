import BitSerial.Bank.Request
import BitSerial.Proofs.Bank.Words

/-!
# Banks as random-access memory

To whoever reads, writes and turns it, and does not reach for the writing and
refreshing of single bits, a bank is an array of words with a count of pulses
for every channel.  That memory is defined here on its own, without a line in
it, and every answer that a bank gives to any sequence of requests is the answer
that the array gives.
-/

namespace BitSerial

/-- Words that stay where they are, and how far each channel has turned. -/
structure WordMemory (channels words : Nat) where
  name : String
  order : StreamOrder
  content : Fin channels → Fin words → Word
  /-- Pulses that a channel has had since the memory was blank. -/
  pulses : Fin channels → Nat

namespace Bank

/-- What may be asked of a bank by someone who works with whole words. -/
inductive Access
  | pulse (channel : Nat)
  | align (channel word : Nat)
  | clock (channel : Nat)
  | read (channel word : Nat)
  | write (channel word : Nat) (value : Word)
  | peek (channel word : Nat)
  | dump (channel : Nat)
  | reset

/-- The request to a bank. -/
def Access.request : Access → Request
  | .pulse channel => .pulse channel
  | .align channel word => .align channel word
  | .clock channel => .clock channel
  | .read channel word => .read channel word
  | .write channel word value => .write channel word value
  | .peek channel word => .peek channel word
  | .dump channel => .dump channel
  | .reset => .reset

/-- Ask a bank one thing after the other. -/
def answers {channels words : Nat} : List Access → Bank channels words →
    List (Except BankError (Reply words)) × Bank channels words
  | [], bank => ([], bank)
  | access :: rest, bank =>
      let (reply, after) := bank.serve access.request
      let (replies, last) := answers rest after
      (reply :: replies, last)

theorem answers_cons {channels words : Nat} (access : Access) (rest : List Access)
    (bank : Bank channels words) :
    bank.answers (access :: rest) =
      ((bank.serve access.request).1 :: ((bank.serve access.request).2.answers rest).1,
        ((bank.serve access.request).2.answers rest).2) :=
  rfl

end Bank

namespace WordMemory

open Bank

variable {channels words : Nat}

/-- Zeros, and no channel has turned. -/
def blank (name : String) (order : StreamOrder) : WordMemory channels words :=
  ⟨name, order, fun _ _ => 0, fun _ => 0⟩

/-- The place under a channel's head. -/
def position (memory : WordMemory channels words) (channel : Fin channels) : Nat :=
  memory.pulses channel % (words * 40)

/-- Pulses until a word's first bit is at the head. -/
def wait (memory : WordMemory channels words) (channel : Fin channels) (word : Fin words) : Nat :=
  (word * 40 + words * 40 - memory.position channel) % (words * 40)

/-- The bit under a channel's head. -/
def front (memory : WordMemory channels words) (channel : Fin channels) : Bit :=
  if inside : memory.position channel / 40 < words then
    (memory.content channel ⟨memory.position channel / 40, inside⟩).getLsbD
      (memory.order.index (memory.position channel % 40))
  else
    false

/-- Turn a channel. -/
def turn (channel : Fin channels) (count : Nat) (memory : WordMemory channels words) :
    WordMemory channels words :=
  { memory with
    pulses := Function.update memory.pulses channel (memory.pulses channel + count) }

/-- Exchange a word. -/
def put (channel : Fin channels) (word : Fin words) (value : Word)
    (memory : WordMemory channels words) : WordMemory channels words :=
  { memory with content := Bank.exchange channel word value memory.content }

/-- Act on a channel that is there. -/
def onChannel (memory : WordMemory channels words) (channel : Nat)
    (act : Fin channels → Reply words × WordMemory channels words) :
    Except BankError (Reply words) × WordMemory channels words :=
  if inside : channel < channels then
    (.ok (act ⟨channel, inside⟩).1, (act ⟨channel, inside⟩).2)
  else
    (.error (.noChannel memory.name channel channels), memory)

/-- Act on a word that is there. -/
def onPlace (memory : WordMemory channels words) (channel word : Nat)
    (act : Fin channels → Fin words → Reply words × WordMemory channels words) :
    Except BankError (Reply words) × WordMemory channels words :=
  if channelInside : channel < channels then
    if wordInside : word < words then
      (.ok (act ⟨channel, channelInside⟩ ⟨word, wordInside⟩).1,
        (act ⟨channel, channelInside⟩ ⟨word, wordInside⟩).2)
    else
      (.error (.noWord memory.name word words), memory)
  else
    (.error (.noChannel memory.name channel channels), memory)

/-- Answer one request. -/
def answer (access : Access) (memory : WordMemory channels words) :
    Except BankError (Reply words) × WordMemory channels words :=
  match access with
  | .pulse channel =>
      memory.onChannel channel fun channel => (.bit (memory.front channel), memory.turn channel 1)
  | .align channel word =>
      memory.onPlace channel word fun channel word =>
        (.count (memory.wait channel word), memory.turn channel (memory.wait channel word))
  | .clock channel =>
      memory.onChannel channel fun channel => (.count (memory.position channel / 40), memory)
  | .read channel word =>
      memory.onPlace channel word fun channel word =>
        (.word (memory.content channel word),
          memory.turn channel (memory.wait channel word + 40))
  | .write channel word value =>
      memory.onPlace channel word fun channel word =>
        (.done, (memory.turn channel (memory.wait channel word + 40)).put channel word value)
  | .peek channel word =>
      memory.onPlace channel word fun channel word => (.word (memory.content channel word), memory)
  | .dump channel =>
      memory.onChannel channel fun channel =>
        (.dump ((List.finRange words).map (memory.content channel)), memory)
  | .reset => (.ok .done, blank memory.name memory.order)

/-- Answer one request after the other. -/
def answers : List Access → WordMemory channels words →
    List (Except BankError (Reply words)) × WordMemory channels words
  | [], memory => ([], memory)
  | access :: rest, memory =>
      let (reply, after) := memory.answer access
      let (replies, last) := answers rest after
      (reply :: replies, last)

theorem answers_cons (access : Access) (rest : List Access) (memory : WordMemory channels words) :
    memory.answers (access :: rest) =
      ((memory.answer access).1 :: ((memory.answer access).2.answers rest).1,
        ((memory.answer access).2.answers rest).2) :=
  rfl

/-- No request changes the order in which a memory streams. -/
theorem order_answer (access : Access) (memory : WordMemory channels words) :
    (memory.answer access).2.order = memory.order := by
  have onChannel (channel : Nat) {act : Fin channels → Reply words × WordMemory channels words}
      (same : ∀ channel, (act channel).2.order = memory.order) :
      (memory.onChannel channel act).2.order = memory.order := by
    rw [WordMemory.onChannel]
    split
    · exact same _
    · rfl
  have onPlace (channel word : Nat)
      {act : Fin channels → Fin words → Reply words × WordMemory channels words}
      (same : ∀ channel word, (act channel word).2.order = memory.order) :
      (memory.onPlace channel word act).2.order = memory.order := by
    rw [WordMemory.onPlace]
    split
    · split
      · exact same _ _
      · rfl
    · rfl
  cases access with
  | pulse channel | clock channel | dump channel => exact onChannel channel fun _ => rfl
  | align channel word | read channel word | write channel word _ | peek channel word =>
      exact onPlace channel word fun _ _ => rfl
  | reset => rfl

theorem position_turn (memory : WordMemory channels words) (channel : Fin channels) (count : Nat) :
    (memory.turn channel count).position channel =
      (memory.position channel + count) % (words * 40) := by
  simp [position, turn]

/-- Channels turn on their own. -/
theorem position_turn_of_ne (memory : WordMemory channels words) {channel other : Fin channels}
    (apart : other ≠ channel) (count : Nat) :
    (memory.turn channel count).position other = memory.position other := by
  simp [position, turn, Function.update_of_ne apart]

end WordMemory

namespace Bank

variable {channels words : Nat}

/-- A bank at rest that has the words of a memory, and heads where its pulses
have brought them. -/
structure Represents (bank : Bank channels words) (memory : WordMemory channels words) : Prop where
  name : bank.name = memory.name
  order : bank.order = memory.order
  keeps : bank.Keeps memory.content
  position : ∀ channel, bank.position channel = memory.position channel

variable {bank : Bank channels words} {memory : WordMemory channels words}

theorem represents_blank (name : String) (order : StreamOrder) (positive : 0 < words) :
    (Bank.blank name order positive : Bank channels words).Represents
      (WordMemory.blank name order) where
  name := rfl
  order := rfl
  keeps := keeps_blank name order positive
  position channel := by
    rw [position_blank, WordMemory.position]
    exact (Nat.zero_mod _).symm

theorem Represents.reset (represents : bank.Represents memory) :
    bank.reset.Represents (WordMemory.blank memory.name memory.order) where
  name := represents.name
  order := represents.order
  keeps := keeps_reset bank
  position channel := by
    rw [position_reset, WordMemory.position]
    exact (Nat.zero_mod _).symm

theorem Represents.waitFor (represents : bank.Represents memory) (channel : Fin channels)
    (word : Fin words) : bank.waitFor channel word = memory.wait channel word := by
  rw [waitFor_eq, represents.position, WordMemory.wait]

/-- Turning a line is turning a channel. -/
theorem Represents.turn (represents : bank.Represents memory) (channel : Fin channels)
    (count : Nat) :
    (bank.modifyLine channel (DelayLine.advance count)).Represents (memory.turn channel count) where
  name := represents.name
  order := represents.order
  keeps := represents.keeps.advance channel count
  position other := by
    by_cases same : other = channel
    · subst same
      rw [position_advance, represents.position, WordMemory.position_turn]
    · rw [position_modifyLine_of_ne bank same, represents.position,
        WordMemory.position_turn_of_ne _ same]

/-- Writing over a word as it passes is turning its channel and exchanging it. -/
theorem Represents.writeWord (represents : bank.Represents memory) (channel : Fin channels)
    (word : Fin words) (value : Word) :
    (bank.writeWord channel word value).Represents
      ((memory.turn channel (memory.wait channel word + 40)).put channel word value) where
  name := represents.name
  order := represents.order
  keeps := represents.keeps.writeWord channel word value
  position other := by
    rw [position_writeWord_eq, represents.waitFor]
    exact (represents.turn channel (memory.wait channel word + 40)).position other

/-- The bit under the head belongs to the word that the head is in. -/
theorem Represents.front (represents : bank.Represents memory) (channel : Fin channels) :
    (bank.line channel).front = memory.front channel := by
  have inside : memory.position channel / 40 < words := by
    have onLine := bank.position_lt channel
    rw [represents.position] at onLine
    omega
  have atHead : (bank.line channel).front = (bank.line channel).cell (memory.position channel) := by
    rw [← represents.position, ← DelayLine.peek_zero]
    rfl
  rw [atHead, represents.keeps.cell channel inside, represents.order, WordMemory.front,
    dif_pos inside]

/-- A bank at rest represents the memory of its words, turned to its positions. -/
theorem Keeps.represents {content : Fin channels → Fin words → Word} (keeps : bank.Keeps content) :
    bank.Represents ⟨bank.name, bank.order, content, bank.position⟩ where
  name := rfl
  order := rfl
  keeps := keeps
  position channel := (Nat.mod_eq_of_lt (bank.position_lt channel)).symm

/-! ## Answers -/

/-- Acting on a channel is the same on both sides if it is on every channel that
is there. -/
theorem Represents.onChannel (represents : bank.Represents memory) (channel : Nat)
    {act : Fin channels → Reply words × Bank channels words}
    {plain : Fin channels → Reply words × WordMemory channels words}
    (same : ∀ channel, (act channel).1 = (plain channel).1)
    (after : ∀ channel, (act channel).2.Represents (plain channel).2) :
    (bank.onChannel channel act).1 = (memory.onChannel channel plain).1 ∧
      (bank.onChannel channel act).2.Represents (memory.onChannel channel plain).2 := by
  rw [Bank.onChannel, WordMemory.onChannel, channel?]
  by_cases inside : channel < channels
  · rw [dif_pos inside, dif_pos inside]
    exact ⟨congrArg Except.ok (same ⟨channel, inside⟩), after ⟨channel, inside⟩⟩
  · rw [dif_neg inside, dif_neg inside, represents.name]
    exact ⟨rfl, represents⟩

/-- Acting on a word is the same on both sides if it is on every word that is
there. -/
theorem Represents.onPlace (represents : bank.Represents memory) (channel word : Nat)
    {act : Fin channels → Fin words → Reply words × Bank channels words}
    {plain : Fin channels → Fin words → Reply words × WordMemory channels words}
    (same : ∀ channel word, (act channel word).1 = (plain channel word).1)
    (after : ∀ channel word, (act channel word).2.Represents (plain channel word).2) :
    (bank.onPlace channel word act).1 = (memory.onPlace channel word plain).1 ∧
      (bank.onPlace channel word act).2.Represents (memory.onPlace channel word plain).2 := by
  rw [Bank.onPlace, WordMemory.onPlace, place?, channel?]
  by_cases channelInside : channel < channels
  · rw [dif_pos channelInside, dif_pos channelInside]
    by_cases wordInside : word < words
    · simp only [dif_pos wordInside]
      exact ⟨congrArg Except.ok (same ⟨channel, channelInside⟩ ⟨word, wordInside⟩),
        after ⟨channel, channelInside⟩ ⟨word, wordInside⟩⟩
    · simp only [dif_neg wordInside]
      rw [represents.name]
      exact ⟨rfl, represents⟩
  · rw [dif_neg channelInside, dif_neg channelInside, represents.name]
    exact ⟨rfl, represents⟩

/-- A bank answers each request as the memory does that it represents, and
represents the memory's next state afterwards. -/
theorem Represents.serve (represents : bank.Represents memory) (access : Access) :
    (bank.serve access.request).1 = (memory.answer access).1 ∧
      (bank.serve access.request).2.Represents (memory.answer access).2 := by
  cases access with
  | pulse channel =>
      apply represents.onChannel
      · intro channel
        exact congrArg Reply.bit (represents.front channel)
      · intro channel
        exact represents.turn channel 1
  | align channel word =>
      apply represents.onPlace
      · intro channel word
        exact congrArg Reply.count (represents.waitFor channel word)
      · intro channel word
        rw [← represents.waitFor]
        exact represents.turn channel _
  | clock channel =>
      apply represents.onChannel
      · intro channel
        exact congrArg (fun position => Reply.count (position / 40)) (represents.position channel)
      · intro _
        exact represents
  | read channel word =>
      apply represents.onPlace
      · intro channel word
        rw [represents.keeps.readWord]
      · intro channel word
        rw [represents.keeps.readWord, ← represents.waitFor]
        exact represents.turn channel _
  | write channel word value =>
      apply represents.onPlace
      · intro _ _
        rfl
      · intro channel word
        exact represents.writeWord channel word value
  | peek channel word =>
      apply represents.onPlace
      · intro channel word
        exact congrArg Reply.word (represents.keeps.word channel word)
      · intro _ _
        exact represents
  | dump channel =>
      apply represents.onChannel
      · intro channel
        have same : bank.peekWord channel = memory.content channel :=
          funext (represents.keeps.word channel)
        rw [dump, same]
      · intro _
        exact represents
  | reset => exact ⟨rfl, represents.reset⟩

theorem Represents.answers (represents : bank.Represents memory) (accesses : List Access) :
    (bank.answers accesses).1 = (memory.answers accesses).1 ∧
      (bank.answers accesses).2.Represents (memory.answers accesses).2 := by
  induction accesses generalizing bank memory with
  | nil => exact ⟨rfl, represents⟩
  | cons access rest ih =>
      obtain ⟨reply, after⟩ := represents.serve access
      obtain ⟨replies, last⟩ := ih after
      rw [answers_cons, WordMemory.answers_cons, reply, replies]
      exact ⟨rfl, last⟩

/-- A bank is a random-access memory: from blank on, whatever sequence of
requests it is given, in range or not, it answers as the array of words does, and
the words and head positions it ends with are the array's. -/
theorem answers_eq_wordMemory (name : String) (order : StreamOrder) (positive : 0 < words)
    (accesses : List Access) :
    let bank : Bank channels words := Bank.blank name order positive
    let memory : WordMemory channels words := WordMemory.blank name order
    (bank.answers accesses).1 = (memory.answers accesses).1 ∧
      (∀ channel word, (bank.answers accesses).2.peekWord channel word =
        (memory.answers accesses).2.content channel word) ∧
      ∀ channel, (bank.answers accesses).2.position channel =
        (memory.answers accesses).2.pulses channel % (words * 40) := by
  intro bank memory
  obtain ⟨replies, last⟩ := (represents_blank name order positive).answers accesses
  exact ⟨replies, last.keeps.word, last.position⟩

/-- Two channels of three words, one of them turned into the middle of a word
before it is written and read. -/
theorem answers_eq_wordMemory_midWord :
    0 < 3 ∧ ((Bank.blank "m" .highFirst (by decide) : Bank 2 3).answers
      [.write 0 2 5, .pulse 0, .pulse 0, .write 0 1 9, .read 0 2, .read 0 1, .peek 1 2, .clock 0,
        .read 2 0, .peek 0 3]).1 =
      [.ok .done, .ok (.bit false), .ok (.bit false), .ok .done, .ok (.word 5), .ok (.word 9),
        .ok (.word 0), .ok (.count 2), .error (.noChannel "m" 2 2), .error (.noWord "m" 3 3)] := by
  refine ⟨by decide, (answers_eq_wordMemory "m" .highFirst (by decide) _).1.trans ?_⟩
  rfl

end Bank

end BitSerial
