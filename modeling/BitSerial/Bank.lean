import BitSerial.DelayLine
import BitSerial.Rotation
import BitSerial.Text.Quoted

/-!
# Banks of delay lines

A bank is a named group of lines of equal length, its channels.  Each channel
holds whole words back to back in the bank's stream order and turns on its own:
its position is the place under its head, counted in pulses, and its clock the
word that place belongs to.
-/

namespace BitSerial

/-- A bank of `channels` lines of `words` words each. -/
structure Bank (channels words : Nat) where
  name : String
  order : StreamOrder
  lines : Vector (DelayLine (words * 40)) channels
  deriving DecidableEq

namespace Bank

variable {channels words : Nat}

/-- A bank of zeros with every channel at its first word. -/
def blank (name : String) (order : StreamOrder) (positive : 0 < words) : Bank channels words where
  name
  order
  lines := Vector.replicate channels (DelayLine.blank (by omega))

/-- A bank of zeros, if it has a channel and a word in it and memory has room
for all cells. -/
def blank? (name : String) (order : StreamOrder) (channels words : Nat) :
    Option (Bank channels words) :=
  if fits : 0 < channels ∧ 0 < words ∧ channels * (words * 40) < cellLimit then
    some (blank name order fits.2.1)
  else
    none

/-- The channel of a bank that has just one. -/
def sole : Fin 1 :=
  ⟨0, Nat.zero_lt_one⟩

/-- A channel's line. -/
def line (bank : Bank channels words) (channel : Fin channels) : DelayLine (words * 40) :=
  getElem bank.lines channel.val channel.isLt

/-- Exchange one channel's line. -/
def setLine (channel : Fin channels) (line : DelayLine (words * 40))
    (bank : Bank channels words) : Bank channels words :=
  { bank with lines := bank.lines.set channel.val line channel.isLt }

/-- Change one channel's line. -/
def modifyLine (channel : Fin channels) (change : DelayLine (words * 40) → DelayLine (words * 40))
    (bank : Bank channels words) : Bank channels words :=
  bank.setLine channel (change (bank.line channel))

/-- The place under a channel's head, in pulses. -/
def position (bank : Bank channels words) (channel : Fin channels) : Nat :=
  (bank.line channel).head

/-- The word whose bits are passing a channel's head. -/
def clock (bank : Bank channels words) (channel : Fin channels) : Nat :=
  bank.position channel / 40

/-- Advance one channel by one cell. -/
def pulse (channel : Fin channels) (bank : Bank channels words) : Bank channels words :=
  bank.modifyLine channel DelayLine.pulse

/-- Pulses until the first bit of a word is at a channel's head.  Between words
whole words are counted, inside one single cells. -/
def waitFor (bank : Bank channels words) (channel : Fin channels) (word : Fin words) : Nat :=
  let position := bank.position channel
  if position % 40 = 0 then
    Rotation.waitPulses (position / 40) word words 40
  else
    (word * 40 + words * 40 - position) % (words * 40)

/-- Pulse a channel until the first bit of a word is at its head. -/
def align (channel : Fin channels) (word : Fin words) (bank : Bank channels words) :
    Bank channels words :=
  bank.modifyLine channel (DelayLine.advance (bank.waitFor channel word))

/-- Align to a word and let it pass, listening. -/
def readWord (channel : Fin channels) (word : Fin words) (bank : Bank channels words) :
    Word × Bank channels words :=
  let aligned := bank.align channel word
  let (bits, line) := (aligned.line channel).emit 40
  (aligned.order.collect bits, aligned.setLine channel line)

/-- Align to a word and write over it. -/
def writeWord (channel : Fin channels) (word : Fin words) (value : Word)
    (bank : Bank channels words) : Bank channels words :=
  (bank.align channel word).modifyLine channel (DelayLine.writeAll (bank.order.bits value))

/-- A word's content, read off the tape without a pulse. -/
def peekWord (bank : Bank channels words) (channel : Fin channels) (word : Fin words) : Word :=
  let line := bank.line channel
  let distance := (word * 40 + words * 40 - bank.position channel) % (words * 40)
  bank.order.collect ((List.range 40).map fun place => line.peek (distance + place))

/-- All words of a channel in order, without a pulse. -/
def dump (bank : Bank channels words) (channel : Fin channels) : List Word :=
  (List.finRange words).map (bank.peekWord channel)

/-- All words of all channels. -/
def contents (bank : Bank channels words) : List (List Word) :=
  (List.finRange channels).map bank.dump

/-- The clocks of all channels. -/
def clocks (bank : Bank channels words) : List Nat :=
  (List.finRange channels).map bank.clock

/-- Clear every channel, switch refresh on and bring every first word to its
head. -/
def reset (bank : Bank channels words) : Bank channels words :=
  { bank with lines := bank.lines.map fun line => line.reset.setRefresh true }

/-- The bank for inspection: its measures and positions, not its contents. -/
def inspect (bank : Bank channels words) : String :=
  let positions := (List.finRange channels).map fun channel => toString (bank.position channel)
  "MemoryBank \x7b name: " ++ Text.quoted bank.name ++ ", channels: " ++ toString channels ++
    ", words_per_channel: " ++ toString words ++
    ", positions: [" ++ String.intercalate ", " positions ++ "], order: " ++ bank.order.name ++
    " \x7d"

/-! ## Changing one channel -/

@[simp]
theorem line_setLine (bank : Bank channels words) (channel : Fin channels)
    (line : DelayLine (words * 40)) : (bank.setLine channel line).line channel = line := by
  simp [setLine, Bank.line]

/-- Other channels do not notice. -/
theorem line_setLine_of_ne (bank : Bank channels words) {channel other : Fin channels}
    (apart : channel ≠ other) (line : DelayLine (words * 40)) :
    (bank.setLine channel line).line other = bank.line other := by
  simp [setLine, Bank.line, Vector.getElem_set_ne, Fin.val_ne_of_ne apart]

end Bank

end BitSerial
