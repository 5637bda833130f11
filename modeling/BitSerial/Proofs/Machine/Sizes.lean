import BitSerial.Machine.State
import BitSerial.Proofs.Bank.Words
import BitSerial.Proofs.Json.Records

/-!
# Sizes as counts

The sizes of a bank are computed in counts, which have sixty-four bits.  The largest number
on the way to any word is the place of the last word one revolution later, so that sum
decides for a whole bank whether it can be computed.  A geometry bounds its data banks and
not its program line; memory does, and at half of what counts can hold.
-/

namespace BitSerial

namespace Bank

/-- Cells of a channel, computed in counts. -/
def cells? (words : Nat) : Option Nat :=
  Count.mul? words 40

/-- Cells from a position forward to a target, computed in counts. -/
def stretch? (position target cells : Nat) : Option Nat := do
  let ahead ← Count.add? target cells
  let distance ← Count.sub? ahead position
  return distance % cells

/-- The position one pulse later, computed in counts. -/
def nextPosition? (position words : Nat) : Option Nat := do
  let cells ← cells? words
  let moved ← Count.add? position 1
  return moved % cells

/-- Pulses until a word is at the head, computed in counts. -/
def waitFrom? (position word words : Nat) : Option Nat := do
  let cells ← cells? words
  let target ← Count.mul? word 40
  if position % 40 = 0 then
    let passing ← Rotation.waitWords? (position / 40) word words
    Count.mul? passing 40
  else
    stretch? position target cells

variable {channels words : Nat}

/-- A word's content, its bits found by counts. -/
def peekWord? (bank : Bank channels words) (channel : Fin channels) (word : Fin words) :
    Option Word := do
  let cells ← cells? words
  let target ← Count.mul? word 40
  let offset ← stretch? (bank.position channel) target cells
  let bits ← (List.range 40).mapM fun place =>
    (Count.add? offset place).map (bank.line channel).peek
  return bank.order.collect bits

/-- Every size of a bank can be computed in counts, and is then what it is in numbers without
a limit. -/
structure Fits (bank : Bank channels words) : Prop where
  cells : cells? words = some (words * 40)
  pulse : ∀ channel : Fin channels, nextPosition? (bank.position channel) words =
    some ((bank.pulse channel).position channel)
  align : ∀ (channel : Fin channels) (word : Fin words),
    waitFrom? (bank.position channel) word words = some (bank.waitFor channel word)
  peek : ∀ channel word, bank.peekWord? channel word = some (bank.peekWord channel word)

/-- The place of the last word one revolution later. -/
def farthest (words : Nat) : Nat :=
  words * 40 + (words - 1) * 40

variable {bank : Bank channels words} {channel : Fin channels}

theorem cells?_of_farthest (small : farthest words < countLimit) :
    cells? words = some (words * 40) := by
  rw [farthest] at small
  exact Count.mul?_of_lt (by omega)

/-- No word is farther than the last one. -/
theorem target_add_cells_lt (small : farthest words < countLimit) (word : Fin words) :
    word.val * 40 + words * 40 < countLimit := by
  have inside := word.isLt
  rw [farthest] at small
  omega

theorem target?_of_farthest (small : farthest words < countLimit) (word : Fin words) :
    Count.mul? word 40 = some (word.val * 40) := by
  have reached := target_add_cells_lt small word
  exact Count.mul?_of_lt (Nat.lt_of_le_of_lt (Nat.le_add_right _ _) reached)

theorem stretch?_of_farthest (small : farthest words < countLimit) (word : Fin words) :
    stretch? (bank.position channel) (word * 40) (words * 40) =
      some ((word * 40 + words * 40 - bank.position channel) % (words * 40)) := by
  have inside := bank.position_lt channel
  rw [stretch?, Count.add?_of_lt (target_add_cells_lt small word), Option.bind_eq_bind,
    Option.bind_some, Count.sub?_of_le (by omega)]
  rfl

theorem nextPosition?_of_farthest (small : farthest words < countLimit) :
    nextPosition? (bank.position channel) words =
      some ((bank.pulse channel).position channel) := by
  have inside := bank.position_lt channel
  have moved : (bank.pulse channel).position channel =
      (bank.position channel + 1) % (words * 40) := by
    rw [pulse, position, line_modifyLine, DelayLine.head_pulse, DelayLine.val_next,
      position]
  rw [farthest] at small
  rw [nextPosition?, cells?_of_farthest (by rw [farthest]; omega), Option.bind_eq_bind,
    Option.bind_some, Count.add?_of_lt (by omega), moved]
  rfl

/-- The wait in words needs less room than the wait in cells. -/
theorem waitFrom?_of_farthest (small : farthest words < countLimit) (word : Fin words) :
    waitFrom? (bank.position channel) word words = some (bank.waitFor channel word) := by
  have inside := bank.position_lt channel
  simp only [waitFrom?, cells?_of_farthest small, target?_of_farthest small,
    Option.bind_eq_bind, Option.bind_some]
  split
  · rename_i aligned
    have reached := target_add_cells_lt small word
    have current := Nat.mod_le (bank.position channel / 40) words
    have passing := Rotation.waitWords_lt (Nat.zero_lt_of_lt word.isLt)
      (bank.position channel / 40) word
    have revolution : word.val % words + words < countLimit := by
      rw [Nat.mod_eq_of_lt word.isLt]
      omega
    rw [Rotation.waitWords?_eq_some (Nat.zero_lt_of_lt word.isLt) revolution, Option.bind_some,
      waitFor, if_pos aligned, Rotation.waitPulses]
    exact Count.mul?_of_lt (by omega)
  · rw [waitFor_eq]
    exact stretch?_of_farthest small word

theorem peekWord?_of_farthest (small : farthest words < countLimit) (word : Fin words) :
    bank.peekWord? channel word = some (bank.peekWord channel word) := by
  have positive := (bank.line channel).head.pos
  let offset := (word * 40 + words * 40 - bank.position channel) % (words * 40)
  have bounded : offset < words * 40 := Nat.mod_lt _ positive
  have each : ∀ place ∈ List.range 40,
      (Count.add? offset place).map (bank.line channel).peek =
        some ((bank.line channel).peek (offset + place)) := by
    intro place inWord
    have near := List.mem_range.mp inWord
    have room : offset + place < countLimit := by
      rw [farthest] at small
      rw [countLimit] at small ⊢
      omega
    rw [Count.add?_of_lt room]
    rfl
  simp only [peekWord?, cells?_of_farthest small, target?_of_farthest small,
    stretch?_of_farthest small, Option.bind_eq_bind, Option.bind_some]
  rw [Json.mapM_of_forall each]
  rfl

/-- A bank fits if the place of its last word does, one revolution later. -/
theorem fits_of_farthest (bank : Bank channels words) (small : farthest words < countLimit) :
    bank.Fits where
  cells := cells?_of_farthest small
  pulse _ := nextPosition?_of_farthest small
  align _ := waitFrom?_of_farthest small
  peek _ := peekWord?_of_farthest small

/-- The last word can be inspected only then. -/
theorem farthest_lt_of_fits (fits : bank.Fits) (channel : Fin channels) :
    farthest words < countLimit := by
  have positive : 0 < words := by
    have cells := (bank.line channel).head.pos
    omega
  let last : Fin words := ⟨words - 1, by omega⟩
  have peeked := fits.peek channel last
  rw [peekWord?, fits.cells, Option.bind_eq_bind, Option.bind_some] at peeked
  obtain ⟨target, isTarget, peeked⟩ := Option.bind_eq_some_iff.mp peeked
  obtain ⟨offset, isOffset, -⟩ := Option.bind_eq_some_iff.mp peeked
  obtain ⟨ahead, isAhead, -⟩ := Option.bind_eq_some_iff.mp isOffset
  rw [Count.mul?, Count.fit?, Option.ite_none_right_eq_some] at isTarget
  rw [Count.add?, Count.fit?, Option.ite_none_right_eq_some] at isAhead
  obtain ⟨-, isTarget⟩ := isTarget
  obtain ⟨small, -⟩ := isAhead
  rw [← Option.some.inj isTarget] at small
  rw [farthest, Nat.add_comm]
  exact small

theorem fits_iff (bank : Bank channels words) (channel : Fin channels) :
    bank.Fits ↔ farthest words < countLimit :=
  ⟨fun fits => farthest_lt_of_fits fits channel, bank.fits_of_farthest⟩

theorem cells?_eq_none_iff : cells? words = none ↔ countLimit ≤ words * 40 :=
  Count.fit?_eq_none_iff

end Bank

/-! ## Machines -/

namespace Machine

variable {geometry : Geometry}

theorem build?_of_valid (valid : geometry.Valid) :
    build? geometry =
      if geometry.mainWords * 40 < cellLimit then .ok (fresh valid) else .error .capacity := by
  obtain ⟨checked, accepted⟩ := Geometry.validate_eq_ok_iff.mpr valid
  rw [build?, accepted]

theorem exists_build_iff (valid : geometry.Valid) :
    (∃ fresh, build? geometry = .ok fresh) ↔ geometry.mainWords * 40 < cellLimit := by
  rw [build?_of_valid valid]
  split
  · rename_i room
    exact ⟨fun _ => room, fun _ => ⟨_, rfl⟩⟩
  · rename_i full
    simp [full]

theorem build?_eq_capacity_iff (valid : geometry.Valid) :
    build? geometry = .error .capacity ↔ cellLimit ≤ geometry.mainWords * 40 := by
  rw [build?_of_valid valid]
  split
  · rename_i room
    simpa using room
  · rename_i full
    simpa using full

/-- Memory holds half of what can be counted.  The last word one revolution later is not quite
twice as far as the cells of the line, but no line is long enough to tell. -/
theorem room_iff {words : Nat} :
    words * 40 < cellLimit ↔ Bank.farthest words < countLimit := by
  rw [Bank.farthest, cellLimit, countLimit]
  omega

/-- On a checked geometry the sizes of the data banks can always be computed in counts.  Those
of the program line can just if its last word one revolution later has a place that is a count,
in every state of the machine or in none; from some length on not even the cells can be
counted, although the geometry is accepted.  It takes memory to refuse such lines: a machine
is built just if all its sizes can be computed. -/
theorem sizes_exact (valid : geometry.Valid) (machine : Machine geometry) :
    machine.data.Fits ∧
    (machine.main.Fits ↔
      geometry.mainWords * 40 + (geometry.mainWords - 1) * 40 < countLimit) ∧
    (Bank.cells? geometry.mainWords = none ↔ countLimit ≤ geometry.mainWords * 40) ∧
    ((∃ fresh, build? geometry = .ok fresh) ↔ machine.main.Fits) ∧
    (build? geometry = .error .capacity ↔ ¬machine.main.Fits) := by
  have data : machine.data.Fits := by
    have few := valid.bankWords_le
    apply machine.data.fits_of_farthest
    rw [Bank.farthest, countLimit]
    omega
  have main := machine.main.fits_iff Bank.sole
  refine ⟨data, main, Bank.cells?_eq_none_iff, ?_, ?_⟩
  · rw [main, ← room_iff, exists_build_iff valid]
  · rw [main, ← room_iff, build?_eq_capacity_iff valid, Nat.not_lt]

/-- The longest program line that is built and the one that is a word longer. -/
theorem sizes_exact_longest :
    ∃ (longest : Machine { mainWords := 230584300921369395 })
      (longer : Machine { mainWords := 230584300921369396 }),
      longest.main.Fits ∧ longest.data.Fits ∧ ¬longer.main.Fits ∧ longer.data.Fits ∧
        build? { mainWords := 230584300921369396 } = .error .capacity := by
  have valid : Geometry.Valid { mainWords := 230584300921369395 } :=
    { Geometry.valid_standard with mainWords_pos := by decide }
  have validLonger : Geometry.Valid { mainWords := 230584300921369396 } :=
    { Geometry.valid_standard with mainWords_pos := by decide }
  obtain ⟨data, main, -, -, -⟩ := sizes_exact valid (fresh valid)
  obtain ⟨dataLonger, mainLonger, -, -, refused⟩ := sizes_exact validLonger (fresh validLonger)
  have tooFar : ¬(fresh validLonger).main.Fits := mt mainLonger.mp (by decide)
  exact ⟨fresh valid, fresh validLonger, main.mpr (by decide), data, tooFar, dataLonger,
    refused.mpr tooFar⟩

/-- A geometry is accepted although the cells of its program line cannot be counted. -/
theorem accepted_although_uncountable :
    ¬ ∀ geometry : Geometry, geometry.mainWords < countLimit →
      (∃ valid, geometry.validate = .ok valid) → Bank.cells? geometry.mainWords ≠ none := by
  intro counted
  let geometry : Geometry := { mainWords := 0x2000000000000000 }
  have valid : geometry.Valid := { Geometry.valid_standard with mainWords_pos := by decide }
  exact counted geometry (by decide) (Geometry.validate_eq_ok_iff.mpr valid) (by decide)

end Machine

end BitSerial
