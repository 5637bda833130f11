import BitSerial.Json.Reader
import BitSerial.Proofs.Json.Tokens

/-!
# Printed values are read back

The tokens of a value take a reader from where a value has to start to where that
value has been read, whatever containers are open.  So the text of a value without
decimals is read as that value.
-/

namespace BitSerial.Json

/-- An array may start with anything that starts a value. -/
theorem readWithin_firstItem {token : Token} (notEnd : token ≠ .closeArray) (rest : List Token)
    (within : List Container) :
    readWithin (token :: rest) .firstItem within = readWithin (token :: rest) .value within := by
  cases token <;> first | rfl | exact absurd rfl notEnd

/-- The tokens of a value do not start with the end of an array. -/
theorem tokens_cons (value : Json) :
    ∃ token rest, tokens value = token :: rest ∧ token ≠ .closeArray := by
  cases value <;> exact ⟨_, _, rfl, nofun⟩

/-- Members that all have readable names. -/
def named (members : List (String × Json)) : List (Option String × Json) :=
  members.map fun member => (some member.1, member.2)

/-- Members with readable names make an object. -/
theorem closeObject_named (members : List (String × Json)) :
    closeObject (named members) = .object members.reverse := by
  rw [closeObject, named, ← List.map_reverse, List.mapM_map]
  have every : members.reverse.mapM some = some members.reverse :=
    List.mapM_pure.trans (congrArg some members.reverse.map_id)
  simp only [Function.comp_def, Option.map_some]
  rw [every]

/-- Items behind those already read, up to the end of their array. -/
theorem readWithin_items {items : List Json} (some : items ≠ [])
    (each : ∀ item ∈ items, ∀ rest within,
      readWithin (tokens item ++ rest) .value within = readWithin rest (.after item) within)
    (read : List Json) (rest : List Token) (within : List Container) :
    readWithin (itemTokens items ++ rest) .value (.array read :: within) =
      readWithin rest (.after (.array (read.reverse ++ items))) within := by
  induction items generalizing read with
  | nil => exact absurd rfl some
  | cons item items ih =>
      have here := each item List.mem_cons_self
      cases items with
      | nil =>
          rw [itemTokens, List.append_assoc, here]
          show readWithin rest (.after (.array (item :: read).reverse)) within = _
          rw [List.reverse_cons]
      | cons next items =>
          have others := ih (List.cons_ne_nil next items)
            (fun other member => each other (List.mem_cons_of_mem item member)) (item :: read)
          rw [itemTokens, List.append_assoc, here]
          · show readWithin (itemTokens (next :: items) ++ rest) .value
              (.array (item :: read) :: within) = _
            rw [others, List.reverse_cons, List.append_assoc]
            rfl
          · exact List.cons_ne_nil next items

/-- Members behind those already read, up to the end of their object. -/
theorem readWithin_members {members : List (String × Json)} (some : members ≠ [])
    (each : ∀ member ∈ members, ∀ rest within,
      readWithin (tokens member.2 ++ rest) .value within =
        readWithin rest (.after member.2) within)
    (read : List (String × Json)) (rest : List Token) (within : List Container) :
    readWithin (memberTokens members ++ rest) .name (.object (named read) none :: within) =
      readWithin rest (.after (.object (read.reverse ++ members))) within := by
  induction members generalizing read with
  | nil => exact absurd rfl some
  | cons member members ih =>
      obtain ⟨name, content⟩ := member
      have here := each (name, content) List.mem_cons_self
      cases members with
      | nil =>
          show readWithin (tokens content ++ [.closeObject] ++ rest) .value
            (.object (named read) name :: within) = _
          rw [List.append_assoc, here]
          show readWithin rest (.after (closeObject (named ((name, content) :: read)))) within = _
          rw [closeObject_named, List.reverse_cons]
      | cons next members =>
          have others := ih (List.cons_ne_nil next members)
            (fun other later => each other (List.mem_cons_of_mem _ later)) ((name, content) :: read)
          rw [memberTokens]
          · show readWithin (tokens content ++ .comma :: memberTokens (next :: members) ++ rest)
              .value (.object (named read) name :: within) = _
            rw [List.append_assoc, here]
            show readWithin (memberTokens (next :: members) ++ rest) .name
              (.object (named ((name, content) :: read)) none :: within) = _
            rw [others, List.reverse_cons, List.append_assoc]
            rfl
          · exact List.cons_ne_nil next members

/-- An object's first name is read as any other. -/
theorem readWithin_firstName {members : List (String × Json)} (some : members ≠ [])
    (rest : List Token) (within : List Container) :
    readWithin (memberTokens members ++ rest) .firstName (.object [] none :: within) =
      readWithin (memberTokens members ++ rest) .name (.object [] none :: within) := by
  match members with
  | [] => exact absurd rfl some
  | [_] => rfl
  | _ :: _ :: _ => rfl

/-- The tokens of a value are read as that value. -/
theorem Whole.readWithin_tokens {value : Json} (whole : Whole value) (rest : List Token)
    (within : List Container) :
    readWithin (tokens value ++ rest) .value within = readWithin rest (.after value) within := by
  induction whole generalizing rest within with
  | null | bool | integer | string => rfl
  | @array items each ih =>
      cases items with
      | nil => rfl
      | cons item items =>
          have inside := readWithin_items (List.cons_ne_nil item items) ih [] rest within
          obtain ⟨token, others, spelled, notEnd⟩ := tokens_cons item
          have first : ∃ others, itemTokens (item :: items) ++ rest = token :: others := by
            cases items with
            | nil =>
                rw [itemTokens, spelled]
                exact ⟨_, rfl⟩
            | cons next items =>
                rw [itemTokens, spelled]
                · exact ⟨_, rfl⟩
                · exact List.cons_ne_nil next items
          obtain ⟨others, first⟩ := first
          rw [first] at inside
          show readWithin (itemTokens (item :: items) ++ rest) .firstItem (.array [] :: within) = _
          rw [first, readWithin_firstItem notEnd]
          exact inside
  | @object members each ih =>
      cases members with
      | nil => rfl
      | cons member members =>
          have inside := readWithin_members (List.cons_ne_nil member members) ih [] rest within
          show readWithin (memberTokens (member :: members) ++ rest) .firstName
            (.object [] none :: within) = _
          rw [readWithin_firstName (List.cons_ne_nil member members)]
          exact inside

/-- The indented text of a value without decimals is read as that value. -/
theorem Whole.read?_indented {value : Json} (whole : Whole value) :
    read? value.indented = some value := by
  rw [read?, whole.tokens?_indented]
  have read := whole.readWithin_tokens [] []
  rwa [List.append_nil] at read

end BitSerial.Json
