/-!
# Breakpoints

A set of addresses, kept as a list in ascending order, so sets with the same
members are equal.
-/

namespace BitSerial

/-- A set of addresses. -/
structure Breakpoints where
  addresses : List Nat
  ascending : addresses.Pairwise (· < ·)

namespace Breakpoints

/-- No breakpoints. -/
def empty : Breakpoints :=
  ⟨[], .nil⟩

/-- Whether an address has a breakpoint. -/
def contains (breakpoints : Breakpoints) (address : Nat) : Bool :=
  breakpoints.addresses.contains address

/-- Put an address into an ascending list, unless it is there. -/
def insertAddress (address : Nat) : List Nat → List Nat
  | [] => [address]
  | first :: rest =>
      if address < first then address :: first :: rest
      else if address = first then first :: rest
      else first :: insertAddress address rest

theorem mem_insertAddress {address other : Nat} {addresses : List Nat} :
    other ∈ insertAddress address addresses ↔ other = address ∨ other ∈ addresses := by
  induction addresses with
  | nil => simp [insertAddress]
  | cons first rest ih =>
      simp only [insertAddress]
      split
      · simp
      · split
        · rename_i same
          simp [same]
        · rw [List.mem_cons, ih, List.mem_cons]
          exact or_left_comm

theorem ascending_insertAddress (address : Nat) {addresses : List Nat}
    (ascending : addresses.Pairwise (· < ·)) :
    (insertAddress address addresses).Pairwise (· < ·) := by
  induction addresses with
  | nil => simp [insertAddress]
  | cons first rest ih =>
      have ⟨least, restAscending⟩ := List.pairwise_cons.1 ascending
      simp only [insertAddress]
      split
      · rename_i before
        refine List.pairwise_cons.2 ⟨fun other member => ?_, ascending⟩
        rcases List.mem_cons.1 member with rfl | later
        · exact before
        · exact Nat.lt_trans before (least other later)
      · split
        · exact ascending
        · refine List.pairwise_cons.2 ⟨fun other member => ?_, ih restAscending⟩
          rcases mem_insertAddress.1 member with rfl | later
          · omega
          · exact least other later

/-- Set a breakpoint. -/
def insert (address : Nat) (breakpoints : Breakpoints) : Breakpoints :=
  ⟨insertAddress address breakpoints.addresses,
    ascending_insertAddress address breakpoints.ascending⟩

/-- Remove a breakpoint. -/
def erase (address : Nat) (breakpoints : Breakpoints) : Breakpoints :=
  ⟨breakpoints.addresses.filter (· ≠ address), breakpoints.ascending.filter _⟩

@[simp]
theorem contains_empty (address : Nat) : empty.contains address = false :=
  rfl

@[simp]
theorem contains_insert (address other : Nat) (breakpoints : Breakpoints) :
    (breakpoints.insert address).contains other =
      (decide (other = address) || breakpoints.contains other) := by
  rw [Bool.eq_iff_iff]
  simp [contains, insert, mem_insertAddress]

@[simp]
theorem contains_erase (address other : Nat) (breakpoints : Breakpoints) :
    (breakpoints.erase address).contains other =
      (decide (other ≠ address) && breakpoints.contains other) := by
  rw [Bool.eq_iff_iff]
  simp [contains, erase, and_comm]

end Breakpoints

end BitSerial
