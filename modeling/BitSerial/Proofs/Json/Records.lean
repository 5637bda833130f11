import BitSerial.Json.Value
import Mathlib.Data.List.Nodup

/-!
# Records in structured values

An object whose members have different names is a record of their values.  A list of
codes is decoded item by item.
-/

namespace BitSerial.Json

/-- What decodes every item decodes the list. -/
theorem mapM_of_forall {α β : Type} {decode : α → Option β} {result : α → β} {items : List α}
    (each : ∀ item ∈ items, decode item = some (result item)) :
    items.mapM decode = some (items.map result) := by
  induction items with
  | nil => rfl
  | cons item items ih =>
      rw [List.mapM_cons, each item List.mem_cons_self,
        ih fun other member => each other (List.mem_cons_of_mem item member)]
      rfl

/-- If what is decoded is just the codes of good results, then a list is decoded just if it
is a list of such codes. -/
theorem mapM_eq_some_iff {α β : Type} {decode : α → Option β} {encode : β → α} {Good : β → Prop}
    (decodes : ∀ item result, decode item = some result ↔ item = encode result ∧ Good result)
    {items : List α} {results : List β} :
    items.mapM decode = some results ↔
      items = results.map encode ∧ ∀ result ∈ results, Good result := by
  constructor
  · intro decoded
    induction items generalizing results with
    | nil =>
        cases decoded
        exact ⟨rfl, nofun⟩
    | cons item items ih =>
        rw [List.mapM_cons] at decoded
        obtain ⟨first, here, decoded⟩ := Option.bind_eq_some_iff.mp decoded
        obtain ⟨others, later, decoded⟩ := Option.bind_eq_some_iff.mp decoded
        cases decoded
        obtain ⟨rfl, good⟩ := (decodes item first).mp here
        obtain ⟨rfl, rest⟩ := ih later
        exact ⟨rfl, List.forall_mem_cons.mpr ⟨good, rest⟩⟩
  · rintro ⟨rfl, good⟩
    rw [List.mapM_map]
    have each : ∀ result ∈ results, decode (encode result) = some (id result) :=
      fun result member => (decodes _ result).mpr ⟨rfl, good result member⟩
    exact (mapM_of_forall each).trans (congrArg some results.map_id)

/-! ## Fields -/

variable {members : List (String × Json)} {name : String}

theorem valuesOf_cons_self (value : Json) :
    valuesOf name ((name, value) :: members) = value :: valuesOf name members :=
  List.filterMap_cons_some (if_pos rfl)

theorem valuesOf_cons_of_ne {other : String} (different : other ≠ name) (value : Json) :
    valuesOf name ((other, value) :: members) = valuesOf name members :=
  List.filterMap_cons_none (if_neg different)

theorem valuesOf_eq_nil (absent : name ∉ members.map (·.1)) : valuesOf name members = [] := by
  induction members with
  | nil => rfl
  | cons member members ih =>
      rw [List.map_cons, List.mem_cons, not_or] at absent
      rw [valuesOf_cons_of_ne (Ne.symm absent.1), ih absent.2]

/-- A member whose name no other has is the only one of that name. -/
theorem valuesOf_eq_singleton (apart : (members.map (·.1)).Nodup) {value : Json}
    (listed : (name, value) ∈ members) : valuesOf name members = [value] := by
  induction members with
  | nil => cases listed
  | cons member members ih =>
      rw [List.map_cons, List.nodup_cons] at apart
      rcases List.mem_cons.mp listed with rfl | later
      · rw [valuesOf_cons_self, valuesOf_eq_nil apart.1]
      · have different : member.1 ≠ name := by
          rintro rfl
          exact apart.1 (List.mem_map.mpr ⟨(member.1, value), later, rfl⟩)
        rw [valuesOf_cons_of_ne different, ih apart.2 later]

/-- The fields of a record are the values of its members. -/
theorem allFields?_object (apart : (members.map (·.1)).Nodup) :
    allFields? (members.map (·.1)) (.object members) = some (members.map (·.2)) := by
  have each : ∀ member ∈ members, field? members member.1 = some (some member.2) := by
    intro member listed
    rw [field?, valuesOf_eq_singleton apart listed]
  have found : (members.map (·.1)).mapM (field? members) =
      some (members.map fun member => some member.2) := by
    rw [List.mapM_map]
    exact mapM_of_forall each
  rw [allFields?, fields?, found]
  show (members.map fun member => some member.2).mapM id = _
  rw [List.mapM_map]
  exact List.mapM_pure

end BitSerial.Json
