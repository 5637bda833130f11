/-!
# Bits

The only thing a cell of a delay line can hold.  Raw values from outside the
machine are checked on the way in; inside, a bit is a Boolean and the full
adder is the one arithmetic primitive everything else is built on.
-/

namespace BitSerial

/-- One binary digit: `true` is a pulse, `false` is the absence of one. -/
abbrev Bit := Bool

/-- A raw value that is no binary digit. -/
structure InvalidBit where
  value : Nat
  deriving DecidableEq

/-- The text of a refused raw value. -/
def InvalidBit.message (error : InvalidBit) : String :=
  s!"invalid bit value {error.value} (must be 0 or 1)"

namespace Bit

/-- Read a raw value, refusing everything but zero and one. -/
def ofNat? : Nat → Except InvalidBit Bit
  | 0 => .ok false
  | 1 => .ok true
  | value => .error ⟨value⟩

/-- Full adder: the sum bit and the carry out. -/
def fullAdd (left right carry : Bit) : Bit × Bit :=
  ((left ^^ right) ^^ carry, left && right || (left ^^ right) && carry)

/-- The digit written for a bit. -/
def digit (bit : Bit) : Char :=
  if bit then '1' else '0'

/-- The digits of a run of bits, first bit first. -/
def digits (bits : List Bit) : String :=
  String.ofList (bits.map digit)

/-- The name of a bit in snapshots. -/
def name (bit : Bit) : String :=
  if bit then "One" else "Zero"

/-- The full adder adds its three inputs exactly. -/
theorem toNat_fullAdd (left right carry : Bit) :
    (fullAdd left right carry).1.toNat + 2 * (fullAdd left right carry).2.toNat =
      left.toNat + right.toNat + carry.toNat := by
  cases left <;> cases right <;> cases carry <;> rfl

end Bit

end BitSerial
