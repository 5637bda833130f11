/-!
# Limits

The first numbers too large for the widths that machines deal in: counts have
sixty-four bits, words forty, and the operands in them thirty-two.  Cells are
numbered with a sign, which leaves them sixty-three.

Arithmetic on counts is checked: what is no count does not wrap round, it has no
result.
-/

namespace BitSerial

/-- The first number that is no count. -/
def countLimit : Nat :=
  0x10000000000000000

/-- The first number of cells that is too large for memory. -/
def cellLimit : Nat :=
  0x8000000000000000

/-- The first number that is no word. -/
def wordLimit : Nat :=
  0x10000000000

/-- The first number that is no operand. -/
def operandLimit : Nat :=
  0x100000000

namespace Count

/-- A number, if it is a count. -/
def fit? (value : Nat) : Option Nat :=
  if value < countLimit then some value else none

/-- A sum of counts, if it is one. -/
def add? (left right : Nat) : Option Nat :=
  fit? (left + right)

/-- A product of counts, if it is one. -/
def mul? (left right : Nat) : Option Nat :=
  fit? (left * right)

/-- A difference of counts, if it is one. -/
def sub? (left right : Nat) : Option Nat :=
  if right ≤ left then some (left - right) else none

theorem fit?_of_lt {value : Nat} (small : value < countLimit) : fit? value = some value :=
  if_pos small

theorem fit?_eq_none_iff {value : Nat} : fit? value = none ↔ countLimit ≤ value := by
  simp [fit?]

theorem add?_of_lt {left right : Nat} (small : left + right < countLimit) :
    add? left right = some (left + right) :=
  fit?_of_lt small

theorem add?_eq_none_iff {left right : Nat} :
    add? left right = none ↔ countLimit ≤ left + right :=
  fit?_eq_none_iff

theorem mul?_of_lt {left right : Nat} (small : left * right < countLimit) :
    mul? left right = some (left * right) :=
  fit?_of_lt small

theorem sub?_of_le {left right : Nat} (enough : right ≤ left) :
    sub? left right = some (left - right) :=
  if_pos enough

end Count

end BitSerial
