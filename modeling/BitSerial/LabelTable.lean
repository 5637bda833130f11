import BitSerial.Json.Value

/-!
# Label tables

Names bound to instruction indices, kept in the order of the names.  A table
has one entry a name, so tables with the same bindings are equal.
-/

namespace BitSerial

/-- A table of labels, sorted by name. -/
structure LabelTable where
  entries : List (String × Nat)
  sorted : entries.Pairwise fun left right => left.1 < right.1

namespace LabelTable

instance : DecidableEq LabelTable := fun left right =>
  decidable_of_iff (left.entries = right.entries) (by
    rcases left with ⟨left, _⟩
    rcases right with ⟨right, _⟩
    simp)

/-- The table without labels. -/
def empty : LabelTable :=
  ⟨[], .nil⟩

/-- Bind a name in a sorted list of entries, in place of any older binding. -/
def insertEntry (name : String) (index : Nat) : List (String × Nat) → List (String × Nat)
  | [] => [(name, index)]
  | entry :: rest =>
      if name < entry.1 then (name, index) :: entry :: rest
      else if name = entry.1 then (name, index) :: rest
      else entry :: insertEntry name index rest

theorem mem_insertEntry {name : String} {index : Nat} {entries : List (String × Nat)}
    {entry : String × Nat} (member : entry ∈ insertEntry name index entries) :
    entry = (name, index) ∨ entry ∈ entries := by
  induction entries with
  | nil => simpa [insertEntry] using member
  | cons first rest ih =>
      simp only [insertEntry] at member
      split at member
      · simpa using member
      · split at member
        · rcases List.mem_cons.1 member with same | older
          · exact .inl same
          · exact .inr (List.mem_cons_of_mem _ older)
        · rcases List.mem_cons.1 member with same | older
          · exact .inr (same ▸ List.mem_cons_self)
          · rcases ih older with same | older
            · exact .inl same
            · exact .inr (List.mem_cons_of_mem _ older)

theorem sorted_insertEntry (name : String) (index : Nat) {entries : List (String × Nat)}
    (sorted : entries.Pairwise fun left right => left.1 < right.1) :
    (insertEntry name index entries).Pairwise fun left right => left.1 < right.1 := by
  induction entries with
  | nil => simp [insertEntry]
  | cons first rest ih =>
      have ⟨least, restSorted⟩ := List.pairwise_cons.1 sorted
      simp only [insertEntry]
      split
      · rename_i before
        refine List.pairwise_cons.2 ⟨fun entry member => ?_, sorted⟩
        rcases List.mem_cons.1 member with same | older
        · exact same ▸ before
        · exact String.lt_trans before (least entry older)
      · split
        · rename_i same
          exact List.pairwise_cons.2 ⟨fun entry member => same ▸ least entry member, restSorted⟩
        · rename_i notBefore apart
          refine List.pairwise_cons.2 ⟨fun entry member => ?_, ih restSorted⟩
          rcases mem_insertEntry member with rfl | older
          · have after : first.1 ≤ name := String.not_lt.1 notBefore
            exact String.not_le.1 fun le => apart (String.le_antisymm le after)
          · exact least entry older

/-- Bind a name, in place of any older binding. -/
def insert (table : LabelTable) (name : String) (index : Nat) : LabelTable :=
  ⟨insertEntry name index table.entries, sorted_insertEntry name index table.sorted⟩

/-- The table that some bindings make, later ones in place of earlier ones. -/
def ofList (bindings : List (String × Nat)) : LabelTable :=
  bindings.foldl (fun table binding => table.insert binding.1 binding.2) empty

/-- The index bound to a name. -/
def find? (table : LabelTable) (name : String) : Option Nat :=
  table.entries.lookup name

/-- The names bound to an index, in order. -/
def namesAt (table : LabelTable) (index : Nat) : List String :=
  (table.entries.filter fun entry => entry.2 = index).map (·.1)

/-- The table as a structured value. -/
def toJson (table : LabelTable) : Json :=
  .object (table.entries.map fun entry => (entry.1, .nat entry.2))

/-- The table in a structured value.  Of equal names the last one counts. -/
def ofJson? : Json → Option LabelTable
  | .object members =>
      let binding? (member : String × Json) : Option (String × Nat) :=
        member.2.count?.map fun index => (member.1, index)
      (members.mapM binding?).map ofList
  | _ => none

end LabelTable

end BitSerial
