import BitSerial.Limits
import BitSerial.Word

/-!
# Numbers in assembly text

A number is a decimal numeral, or a hexadecimal or binary one behind its radix
mark, and any of them may follow a minus sign.  Text that does not begin like a
number is none; text that does, but whose digits have no value in sixty-four
bits, is a number out of every range.
-/

namespace BitSerial

/-- A number as it is spelled. -/
structure Literal where
  /-- Whether a minus sign stands in front. -/
  negative : Bool
  /-- The value of the digits, if they have one below 2^64. -/
  magnitude : Option Nat
  deriving DecidableEq

namespace Literal

/-- A value that fits in sixty-four bits. -/
def bounded (value : Option Nat) : Option Nat :=
  value.filter (· < countLimit)

/-- The value of a numeral behind a radix mark, where a plus sign may stand in
front. -/
def marked (base : Nat) (digits : List Char) : Option Nat :=
  match digits with
  | '+' :: digits => bounded (Numeral.read? base digits)
  | digits => bounded (Numeral.read? base digits)

/-- The value of a number without sign, `none` inside if it has none. -/
def magnitudeOf? (text : List Char) : Option (Option Nat) :=
  match text with
  | '0' :: 'X' :: digits => some (marked 16 digits)
  | '0' :: 'B' :: digits => some (marked 2 digits)
  | [] => none
  | first :: _ =>
      if Numeral.isDecimal first then some (bounded (Numeral.read? 10 text)) else none

/-- The number that an upper-case text spells, if it begins like one. -/
def ofText? (text : List Char) : Option Literal :=
  match text with
  | '-' :: digits => (magnitudeOf? digits).map fun magnitude => ⟨true, magnitude⟩
  | digits => (magnitudeOf? digits).map fun magnitude => ⟨false, magnitude⟩

/-- The number as an operand, negative ones in two's complement. -/
def operand? (literal : Literal) : Option Operand :=
  literal.magnitude.bind fun magnitude =>
    if literal.negative then
      if 2 * magnitude ≤ operandLimit then some (-BitVec.ofNat 32 magnitude) else none
    else
      if magnitude < operandLimit then some (BitVec.ofNat 32 magnitude) else none

/-- The number as a word, cut to its low forty bits. -/
def word? (literal : Literal) : Option Word :=
  literal.magnitude.map fun magnitude =>
    if literal.negative then -BitVec.ofNat 40 magnitude else BitVec.ofNat 40 magnitude

end Literal

end BitSerial
