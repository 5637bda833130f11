import BitSerial.Limits
import BitSerial.Text.Numeral

/-!
# Structured values

Values of the JSON notation as trees.  Members of an object keep their order
and their repetitions: what a repeated name means is for whoever takes the
value apart.  A number written without fraction and exponent is an integer, any
other is a decimal, so that a reader of counts can refuse `1.0`.
-/

namespace BitSerial

/-- A structured value. -/
inductive Json where
  | null
  | bool (value : Bool)
  /-- A number written as plain digits, with a minus sign if negative. -/
  | integer (value : Int)
  /-- A number with a fraction or an exponent: a multiple of a power of ten. -/
  | decimal (mantissa exponent : Int)
  | string (content : String)
  | array (items : List Json)
  | object (members : List (String × Json))
  /-- A well-formed value whose escapes spell no Unicode text.  It may stand
  where values are skipped, and nowhere else. -/
  | unreadable

namespace Json

/-- A natural number as a value. -/
def nat (value : Nat) : Json :=
  .integer value

/-- A value for an optional one, `null` for none. -/
def ofOption {α : Type} (encode : α → Json) : Option α → Json
  | none => .null
  | some value => encode value

/-- A count below a bound.  Only plain digits spell one. -/
def natBelow? (bound : Nat) : Json → Option Nat
  | .integer (.ofNat value) => if value < bound then some value else none
  | _ => none

/-- A count that fits in sixty-four bits. -/
def count? : Json → Option Nat :=
  natBelow? countLimit

/-- The values that an object has under a name, in order. -/
def valuesOf (name : String) (members : List (String × Json)) : List Json :=
  members.filterMap fun (key, value) => if key = name then some value else none

/-- The value of a field, `none` inside when it is missing.  A field given
twice is refused. -/
def field? (members : List (String × Json)) (name : String) : Option (Option Json) :=
  match valuesOf name members with
  | [] => some none
  | [value] => some (some value)
  | _ => none

/-- The values of a record's fields, in the order of their names.  A record is
an object, in which other names are skipped, or an array of its fields in
order, which may be short but not long. -/
def fields? (names : List String) : Json → Option (List (Option Json))
  | .object members => names.mapM (field? members)
  | .array items =>
      if items.length ≤ names.length then
        some (items.map some ++ List.replicate (names.length - items.length) none)
      else
        none
  | _ => none

/-- Values for the fields of a record that must all be there. -/
def allFields? (names : List String) (value : Json) : Option (List Json) :=
  (fields? names value).bind fun fields => fields.mapM id

theorem natBelow?_eq_some_iff {bound value : Nat} {json : Json} :
    natBelow? bound json = some value ↔ json = nat value ∧ value < bound := by
  constructor
  · intro read
    unfold natBelow? at read
    split at read
    · split at read
      · cases read
        exact ⟨rfl, by assumption⟩
      · contradiction
    · contradiction
  · rintro ⟨rfl, inside⟩
    show (if value < bound then some value else none) = some value
    rw [if_pos inside]

end Json

end BitSerial
