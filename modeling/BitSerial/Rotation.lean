import BitSerial.Limits

/-!
# Rotational waits

A line delivers only the word that stands at its head.  Any other word costs
the pulses that bring it round, less than one revolution of them.
-/

namespace BitSerial.Rotation

/-- Words from `current` forward to `target`, one revolution too many if
`target` lies ahead.  Both positions are taken round the line. -/
def stretch (current target words : Nat) : Nat :=
  target % words + words - current % words

/-- Words that pass the head before `target` arrives, starting with `current`
there. -/
def waitWords (current target words : Nat) : Nat :=
  stretch current target words % words

/-- Pulses before `target` is at the head. -/
def waitPulses (current target words wordLength : Nat) : Nat :=
  waitWords current target words * wordLength

/-- The word at the head once `target` has passed it. -/
def clockAfter (target words : Nat) : Nat :=
  (target + 1) % words

/-- What it takes to reach a word. -/
structure Wait where
  words : Nat
  pulses : Nat
  clockAfter : Nat
  deriving DecidableEq

/-- Words that pass the head before `target` arrives, computed in counts. -/
def waitWords? (current target words : Nat) : Option Nat := do
  let ahead ← Count.add? (target % words) words
  let passing ← Count.sub? ahead (current % words)
  return passing % words

/-- The wait for a word on a line of given size, computed in counts.  There is
none if a number on the way is no count, and none on a line of no words, which
has no positions to wait for. -/
def wait? (current target words wordLength : Nat) : Option Wait :=
  if words = 0 then
    none
  else do
    let passing ← waitWords? current target words
    let pulses ← Count.mul? passing wordLength
    let next ← Count.add? target 1
    return { words := passing, pulses, clockAfter := next % words }

theorem waitWords_lt {words : Nat} (positive : 0 < words) (current target : Nat) :
    waitWords current target words < words :=
  Nat.mod_lt _ positive

/-- Waiting brings the target to the head. -/
theorem add_waitWords_mod {words : Nat} (positive : 0 < words) (current target : Nat) :
    (current + waitWords current target words) % words = target % words := by
  have currentInside := Nat.mod_lt current positive
  rw [waitWords, stretch, Nat.add_mod_mod, ← Nat.mod_add_mod,
    show current % words + (target % words + words - current % words) =
      target % words + words by omega]
  simp

theorem waitWords?_eq_some {current target words : Nat} (positive : 0 < words)
    (revolution : target % words + words < countLimit) :
    waitWords? current target words = some (waitWords current target words) := by
  have currentInside := Nat.mod_lt current positive
  rw [waitWords?, Count.add?_of_lt revolution, Option.bind_eq_bind, Option.bind_some,
    Count.sub?_of_le (by omega)]
  rfl

/-- On a line whose revolution is a count, every wait is. -/
theorem wait?_eq_some {current target words wordLength : Nat} (positive : 0 < words)
    (revolution : 2 * words ≤ countLimit) (pulses : words * wordLength ≤ countLimit)
    (wordLength_pos : 0 < wordLength) (inside : target + 1 < countLimit) :
    wait? current target words wordLength =
      some {
        words := waitWords current target words
        pulses := waitPulses current target words wordLength
        clockAfter := clockAfter target words } := by
  have targetInside := Nat.mod_lt target positive
  have waitInside : waitWords current target words * wordLength < countLimit :=
    Nat.lt_of_lt_of_le
      ((Nat.mul_lt_mul_right wordLength_pos).mpr (waitWords_lt positive current target)) pulses
  simp only [wait?, if_neg (Nat.ne_of_gt positive),
    waitWords?_eq_some positive (show target % words + words < countLimit by omega),
    Count.mul?_of_lt waitInside, Count.add?_of_lt inside, Option.bind_eq_bind, Option.bind_some]
  rfl

end BitSerial.Rotation
