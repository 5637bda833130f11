import BitSerial.LabelTable
import Mathlib.Data.List.Nodup

/-!
# Label tables by their entries

A table is a finite function from names to indices.  It is determined by its entries,
whatever order they came in.
-/

namespace BitSerial.LabelTable

variable {table : LabelTable} {name : String} {index : Nat}

theorem nodup_names (table : LabelTable) : (table.entries.map (·.1)).Nodup :=
  List.pairwise_map.mpr (table.sorted.imp String.ne_of_lt)

/-- A name has one index. -/
theorem index_unique {other : Nat} (one : (name, index) ∈ table.entries)
    (another : (name, other) ∈ table.entries) : index = other := by
  have same := List.inj_on_of_nodup_map table.nodup_names one another rfl
  exact congrArg Prod.snd same

/-- Tables with the same entries are equal. -/
theorem ext {left right : LabelTable}
    (same : ∀ entry, entry ∈ left.entries ↔ entry ∈ right.entries) : left = right := by
  have permuted : left.entries.Perm right.entries := by
    rw [List.perm_ext_iff_of_nodup left.nodup_names.of_map right.nodup_names.of_map]
    exact same
  have entries : left.entries = right.entries := by
    apply permuted.eq_of_pairwise _ left.sorted right.sorted
    intro one other _ _ before behind
    exact absurd before (String.lt_asymm behind)
  rcases left with ⟨left, _⟩
  rcases right with ⟨right, _⟩
  cases entries
  rfl

theorem find?_eq_none_iff : table.find? name = none ↔ ∀ index, (name, index) ∉ table.entries := by
  rw [find?, List.lookup_eq_none_iff]
  constructor
  · intro absent index member
    exact bne_iff_ne.mp (absent _ member) rfl
  · rintro absent ⟨other, index⟩ member
    rw [bne_iff_ne]
    rintro rfl
    exact absent index member

theorem mem_of_find (found : table.find? name = some index) : (name, index) ∈ table.entries := by
  obtain ⟨before, behind, entries, _⟩ := List.lookup_eq_some_iff.mp found
  rw [entries]
  exact List.mem_append_right before List.mem_cons_self

theorem find?_eq_some_iff : table.find? name = some index ↔ (name, index) ∈ table.entries := by
  constructor
  · exact mem_of_find
  · intro member
    cases found : table.find? name with
    | none => exact absurd member (find?_eq_none_iff.mp found index)
    | some other => exact congrArg some (index_unique (mem_of_find found) member)

/-! ## Binding a name -/

theorem mem_insertEntry_self (name : String) (index : Nat) (entries : List (String × Nat)) :
    (name, index) ∈ insertEntry name index entries := by
  induction entries with
  | nil => exact List.mem_cons_self
  | cons first rest ih =>
      rw [insertEntry]
      split
      · exact List.mem_cons_self
      · split
        · exact List.mem_cons_self
        · exact List.mem_cons_of_mem _ ih

theorem mem_insertEntry_of_ne {entries : List (String × Nat)} {entry : String × Nat}
    (member : entry ∈ entries) (apart : entry.1 ≠ name) :
    entry ∈ insertEntry name index entries := by
  induction entries with
  | nil => cases member
  | cons first rest ih =>
      rw [insertEntry]
      split
      · exact List.mem_cons_of_mem _ member
      · split
        · rename_i same
          rcases List.mem_cons.mp member with rfl | later
          · exact absurd same.symm apart
          · exact List.mem_cons_of_mem _ later
        · rcases List.mem_cons.mp member with rfl | later
          · exact List.mem_cons_self
          · exact List.mem_cons_of_mem _ (ih later)

/-- A name that is new is added to the table. -/
theorem mem_insert_iff (fresh : table.find? name = none) {entry : String × Nat} :
    entry ∈ (table.insert name index).entries ↔ entry = (name, index) ∨ entry ∈ table.entries := by
  constructor
  · exact mem_insertEntry
  · rintro (rfl | member)
    · exact mem_insertEntry_self name index table.entries
    · apply mem_insertEntry_of_ne member
      rintro rfl
      exact find?_eq_none_iff.mp fresh entry.2 member

/-! ## Tables of many bindings -/

/-- A name behind all others is bound at the end. -/
theorem insertEntry_of_forall_lt {entries : List (String × Nat)}
    (before : ∀ entry ∈ entries, entry.1 < name) :
    insertEntry name index entries = entries ++ [(name, index)] := by
  induction entries with
  | nil => rfl
  | cons first rest ih =>
      obtain ⟨least, before⟩ := List.forall_mem_cons.mp before
      rw [insertEntry, if_neg (String.lt_asymm least), if_neg (String.ne_of_lt least).symm,
        ih before]
      rfl

/-- Bindings in the order of their names, all behind those of a table, are bound in that
order. -/
theorem entries_foldl_insert {bindings : List (String × Nat)}
    (sorted : (table.entries ++ bindings).Pairwise fun left right => left.1 < right.1) :
    (bindings.foldl (fun table binding => table.insert binding.1 binding.2) table).entries =
      table.entries ++ bindings := by
  induction bindings generalizing table with
  | nil => exact (List.append_nil _).symm
  | cons binding rest ih =>
      have before : ∀ entry ∈ table.entries, entry.1 < binding.1 := fun entry member =>
        (List.pairwise_append.mp sorted).2.2 entry member binding List.mem_cons_self
      have bound : (table.insert binding.1 binding.2).entries = table.entries ++ [binding] :=
        insertEntry_of_forall_lt before
      rw [← List.singleton_append, ← List.append_assoc, ← bound] at sorted ⊢
      exact ih sorted

/-- A table is made of its own entries. -/
theorem ofList_entries (table : LabelTable) : ofList table.entries = table := by
  have sorted : (empty.entries ++ table.entries).Pairwise fun left right => left.1 < right.1 :=
    table.sorted
  have entries : (ofList table.entries).entries = table.entries := entries_foldl_insert sorted
  exact ext fun entry => by rw [entries]

/-! ## Names of an index -/

theorem mem_namesAt : name ∈ table.namesAt index ↔ (name, index) ∈ table.entries := by
  rw [namesAt, List.mem_map]
  constructor
  · rintro ⟨entry, member, rfl⟩
    obtain ⟨listed, at_index⟩ := List.mem_filter.mp member
    rw [decide_eq_true_eq] at at_index
    rwa [← at_index]
  · intro member
    refine ⟨(name, index), List.mem_filter.mpr ⟨member, ?_⟩, rfl⟩
    exact decide_eq_true rfl

theorem nodup_namesAt (table : LabelTable) (index : Nat) : (table.namesAt index).Nodup :=
  table.nodup_names.sublist (List.filter_sublist.map _)

end BitSerial.LabelTable
