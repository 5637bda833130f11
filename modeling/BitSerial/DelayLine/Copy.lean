import BitSerial.DelayLine

/-!
# Two lines pulsed together

A transfer is one bit per pulse: what leaves the head of one line enters
another.  The lines may differ in length; each moves one cell per bit.
-/

namespace BitSerial.DelayLine

variable {sourceLength targetLength : Nat}

/-- Copy bits from the head of one line into another.  The source refreshes
itself as it always does.  Both lines are given back, source first. -/
def copy : Nat → DelayLine targetLength → DelayLine sourceLength →
    DelayLine sourceLength × DelayLine targetLength
  | 0, target, source => (source, target)
  | count + 1, target, source => copy count (target.write source.front) source.pulse

/-- Move bits from the head of one line into another, leaving zeros behind.
Both lines are given back, source first. -/
def move : Nat → DelayLine targetLength → DelayLine sourceLength →
    DelayLine sourceLength × DelayLine targetLength
  | 0, target, source => (source, target)
  | count + 1, target, source => move count (target.write source.front) (source.write false)

end BitSerial.DelayLine
