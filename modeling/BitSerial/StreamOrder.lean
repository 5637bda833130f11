import BitSerial.Word

/-!
# Stream orders

A word passes the head of a line one bit at a time.  Registers and data banks
stream bit 0 first, so that a carry can follow the addition; the program line
streams bit 39 first.
-/

namespace BitSerial

/-- Which end of a word passes the head first. -/
inductive StreamOrder
  | highFirst
  | lowFirst
  deriving DecidableEq

namespace StreamOrder

/-- The index of the word bit that streams at a place. -/
def index : StreamOrder → Nat → Nat
  | .highFirst, place => 39 - place
  | .lowFirst, place => place

/-- The index of the word bit that streams at a place, if the order has one
there.  Counting up has no end; counting down ends at bit 0. -/
def index? (order : StreamOrder) (place : Nat) : Option Nat :=
  match order with
  | .highFirst => if place < 40 then some (39 - place) else none
  | .lowFirst => some place

/-- The bits of a word in streaming order. -/
def bits (order : StreamOrder) (word : Word) : List Bit :=
  (List.range 40).map fun place => word.getLsbD (order.index place)

/-- The number whose bits are given lowest first. -/
def fromLow : List Bit → Nat
  | [] => 0
  | bit :: rest => bit.toNat + 2 * fromLow rest

/-- The number whose bits are given highest first. -/
def fromHigh (bits : List Bit) : Nat :=
  bits.foldl (fun value bit => 2 * value + bit.toNat) 0

/-- The word whose bits arrive in streaming order.  The first forty count;
fewer leave the rest of the number zero. -/
def collect (order : StreamOrder) (bits : List Bit) : Word :=
  match order with
  | .highFirst => BitVec.ofNat 40 (fromHigh (bits.take 40))
  | .lowFirst => BitVec.ofNat 40 (fromLow (bits.take 40))

/-- The name of an order in snapshots. -/
def name : StreamOrder → String
  | .highFirst => "MsbFirst"
  | .lowFirst => "LsbFirst"

@[simp]
theorem length_bits (order : StreamOrder) (word : Word) : (order.bits word).length = 40 := by
  simp [bits]

/-- The bit streamed at a place is the one the order names. -/
@[simp]
theorem getElem_bits (order : StreamOrder) (word : Word) (place : Nat)
    (inside : place < (order.bits word).length) :
    (order.bits word)[place] = word.getLsbD (order.index place) := by
  simp [bits]

/-- Numbers built lowest bit first have exactly those bits. -/
theorem testBit_fromLow (bits : List Bit) (place : Nat) :
    (fromLow bits).testBit place = bits[place]?.getD false := by
  induction bits generalizing place with
  | nil => simp [fromLow]
  | cons bit rest ih =>
      cases place with
      | zero =>
          rw [Nat.testBit_zero]
          cases bit with
          | false => exact decide_eq_false (by rw [fromLow, Bool.toNat_false]; omega)
          | true => exact decide_eq_true (by rw [fromLow, Bool.toNat_true]; omega)
      | succ place =>
          rw [Nat.testBit_succ]
          have halved : fromLow (bit :: rest) / 2 = fromLow rest := by
            have bounded := Bool.toNat_le bit
            simp only [fromLow]
            omega
          rw [halved, ih]
          rfl

/-- Highest first is lowest first backwards. -/
theorem fromHigh_eq_fromLow_reverse (bits : List Bit) :
    fromHigh bits = fromLow bits.reverse := by
  have prepend (rest : List Bit) (front : Bit) (value : Nat) :
      (rest ++ [front]).foldr (fun bit value => bit.toNat + 2 * value) value =
        rest.foldr (fun bit value => bit.toNat + 2 * value) (front.toNat + 2 * value) := by
    simp
  have low (rest : List Bit) :
      fromLow rest = rest.foldr (fun bit value => bit.toNat + 2 * value) 0 := by
    induction rest with
    | nil => rfl
    | cons bit rest ih => simp [fromLow, ih]
  rw [low, List.foldr_reverse, fromHigh]
  simp [Nat.add_comm]

end StreamOrder

end BitSerial
