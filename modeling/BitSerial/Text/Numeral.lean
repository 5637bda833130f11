/-!
# Numerals

Natural numbers written in a radix, upper case from ten up, and read back.
Reading takes digits of either case and refuses an empty run and any other
character; a width is reached with leading zeros, which reading ignores.
-/

namespace BitSerial.Numeral

/-- The digits of a number in base ten, without leading zeros. -/
def decimal (value : Nat) : List Char :=
  Nat.toDigits 10 value

/-- The digits of a number in base sixteen, upper case. -/
def hexadecimal (value : Nat) : List Char :=
  (Nat.toDigits 16 value).map Char.toUpper

/-- The digits of a number in base two. -/
def binary (value : Nat) : List Char :=
  Nat.toDigits 2 value

/-- Digits brought to a width with leading zeros. -/
def padded (width : Nat) (digits : List Char) : List Char :=
  digits.leftpad width '0'

/-- An integer in base ten, with a minus sign when it is negative. -/
def signed : Int → List Char
  | .ofNat value => decimal value
  | .negSucc value => '-' :: decimal (value + 1)

/-- What a character is worth as a digit, letters of either case counting from
ten. -/
def digitValue? (char : Char) : Option Nat :=
  let code := char.toNat
  if '0'.toNat ≤ code ∧ code ≤ '9'.toNat then some (code - '0'.toNat)
  else if 'A'.toNat ≤ code ∧ code ≤ 'F'.toNat then some (code - 'A'.toNat + 10)
  else if 'a'.toNat ≤ code ∧ code ≤ 'f'.toNat then some (code - 'a'.toNat + 10)
  else none

/-- A character's worth in a radix, if it is a digit there. -/
def digitIn? (base : Nat) (char : Char) : Option Nat :=
  (digitValue? char).filter (· < base)

/-- The value of a run of digits after those already read. -/
def readFrom? (base : Nat) : Nat → List Char → Option Nat
  | value, [] => some value
  | value, char :: rest =>
      (digitIn? base char).bind fun digit => readFrom? base (base * value + digit) rest

/-- The value of a whole numeral.  At least one digit is needed. -/
def read? (base : Nat) : List Char → Option Nat
  | [] => none
  | digits => readFrom? base 0 digits

/-- A decimal digit. -/
def isDecimal (char : Char) : Bool :=
  (digitIn? 10 char).isSome

theorem readFrom?_append (base value : Nat) (left right : List Char) :
    readFrom? base value (left ++ right) =
      (readFrom? base value left).bind fun middle => readFrom? base middle right := by
  induction left generalizing value with
  | nil => rfl
  | cons char rest ih =>
      simp only [List.cons_append, readFrom?]
      cases digitIn? base char with
      | none => rfl
      | some digit => simpa using ih (base * value + digit)

end BitSerial.Numeral
