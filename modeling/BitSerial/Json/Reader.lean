import BitSerial.Json.Token

/-!
# Reading structured values

A text is one value with nothing but blanks around it.  Tokens are read one at
a time against the containers that are still open, so nesting costs no more
than length, however deep it is.
-/

namespace BitSerial.Json

/-- A container whose end has not been read. -/
inductive Container where
  /-- An array with its items so far, newest first. -/
  | array (items : List Json)
  /-- An object with its members so far, newest first, and the name of the one
  being read. -/
  | object (members : List (Option String × Json)) (name : Option String)

/-- What the next token has to be. -/
inductive Expectation where
  /-- The start of a value. -/
  | value
  /-- The first item of an array, or its end. -/
  | firstItem
  /-- The name of a member. -/
  | name
  /-- The name of an object's first member, or its end. -/
  | firstName
  /-- The colon after a name. -/
  | colon
  /-- A comma or the end of a container, behind a finished value. -/
  | after (value : Json)

/-- An object from its members newest first.  One unreadable name makes it
unreadable. -/
def closeObject (members : List (Option String × Json)) : Json :=
  match members.reverse.mapM fun (name, value) => name.map fun name => (name, value) with
  | some members => .object members
  | none => .unreadable

/-- The value of quoted text. -/
def ofText : Option String → Json
  | some content => .string content
  | none => .unreadable

/-- Read the remaining tokens inside the open containers, innermost first. -/
def readWithin : List Token → Expectation → List Container → Option Json
  | [], .after value, [] => some value
  | token :: rest, .value, within =>
      match token with
      | .openObject => readWithin rest .firstName (.object [] none :: within)
      | .openArray => readWithin rest .firstItem (.array [] :: within)
      | .scalar value => readWithin rest (.after value) within
      | .text content => readWithin rest (.after (ofText content)) within
      | _ => none
  | token :: rest, .firstItem, within =>
      match token with
      | .closeArray =>
          match within with
          | .array _ :: within => readWithin rest (.after (.array [])) within
          | _ => none
      | .openObject => readWithin rest .firstName (.object [] none :: within)
      | .openArray => readWithin rest .firstItem (.array [] :: within)
      | .scalar value => readWithin rest (.after value) within
      | .text content => readWithin rest (.after (ofText content)) within
      | _ => none
  | .text name :: rest, .name, .object members _ :: within =>
      readWithin rest .colon (.object members name :: within)
  | .text name :: rest, .firstName, .object members _ :: within =>
      readWithin rest .colon (.object members name :: within)
  | .closeObject :: rest, .firstName, .object _ _ :: within =>
      readWithin rest (.after (.object [])) within
  | .colon :: rest, .colon, within => readWithin rest .value within
  | .comma :: rest, .after value, .array items :: within =>
      readWithin rest .value (.array (value :: items) :: within)
  | .closeArray :: rest, .after value, .array items :: within =>
      readWithin rest (.after (.array (value :: items).reverse)) within
  | .comma :: rest, .after value, .object members name :: within =>
      readWithin rest .name (.object ((name, value) :: members) none :: within)
  | .closeObject :: rest, .after value, .object members name :: within =>
      readWithin rest (.after (closeObject ((name, value) :: members))) within
  | _, _, _ => none

/-- The value that a whole text spells. -/
def read? (text : String) : Option Json :=
  (tokens? text.toList).bind fun tokens => readWithin tokens .value []

end BitSerial.Json
