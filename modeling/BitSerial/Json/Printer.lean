import BitSerial.Json.Value

/-!
# Printing structured values

The compact form has no blanks.  The indented form puts every item and member
on a line of its own, two columns deeper than its container; empty containers
stay on one line.  Text is quoted the same way in both.
-/

namespace BitSerial.Json

/-- A character inside quotes: quote and backslash escaped, control characters
by their short escape or their code, all others as they are. -/
def quotedChar (char : Char) : List Char :=
  match char with
  | '"' => ['\\', '"']
  | '\\' => ['\\', '\\']
  | '\x08' => ['\\', 'b']
  | '\t' => ['\\', 't']
  | '\n' => ['\\', 'n']
  | '\x0c' => ['\\', 'f']
  | '\r' => ['\\', 'r']
  | _ =>
      if char.toNat < 32 then
        ['\\', 'u'] ++ Numeral.padded 4 (Nat.toDigits 16 char.toNat)
      else
        [char]

/-- Text in quotes. -/
def quoted (text : String) : List Char :=
  '"' :: text.toList.flatMap quotedChar ++ ['"']

/-- Values that hold no others. -/
def scalar : Json → List Char
  | .bool true => "true".toList
  | .bool false => "false".toList
  | .integer value => Numeral.signed value
  | .decimal mantissa exponent => Numeral.signed mantissa ++ 'e' :: Numeral.signed exponent
  | .string content => quoted content
  | _ => "null".toList

mutual

/-- The form without blanks. -/
def compactChars : Json → List Char
  | .array items => '[' :: compactItems items
  | .object members => '{' :: compactMembers members
  | value => scalar value

/-- The items of an array, and its end. -/
def compactItems : List Json → List Char
  | [] => [']']
  | [item] => compactChars item ++ [']']
  | item :: rest => compactChars item ++ ',' :: compactItems rest

/-- The members of an object, and its end. -/
def compactMembers : List (String × Json) → List Char
  | [] => ['}']
  | [(name, value)] => quoted name ++ ':' :: compactChars value ++ ['}']
  | (name, value) :: rest =>
      quoted name ++ ':' :: compactChars value ++ ',' :: compactMembers rest

end

/-- A line break and the blanks that lead to a depth. -/
def lineAt (depth : Nat) : List Char :=
  '\n' :: List.replicate (2 * depth) ' '

mutual

/-- The indented form of a value that starts at a depth. -/
def indentedChars (depth : Nat) : Json → List Char
  | .array [] => ['[', ']']
  | .array items => '[' :: indentedItems depth items
  | .object [] => ['{', '}']
  | .object members => '{' :: indentedMembers depth members
  | value => scalar value

/-- The items of an array at a depth, each on its line, and its end. -/
def indentedItems (depth : Nat) : List Json → List Char
  | [] => lineAt depth ++ [']']
  | [item] => lineAt (depth + 1) ++ indentedChars (depth + 1) item ++ lineAt depth ++ [']']
  | item :: rest =>
      lineAt (depth + 1) ++ indentedChars (depth + 1) item ++ ',' :: indentedItems depth rest

/-- The members of an object at a depth, each on its line, and its end. -/
def indentedMembers (depth : Nat) : List (String × Json) → List Char
  | [] => lineAt depth ++ ['}']
  | [(name, value)] =>
      lineAt (depth + 1) ++ quoted name ++ ':' :: ' ' :: indentedChars (depth + 1) value ++
        lineAt depth ++ ['}']
  | (name, value) :: rest =>
      lineAt (depth + 1) ++ quoted name ++ ':' :: ' ' :: indentedChars (depth + 1) value ++
        ',' :: indentedMembers depth rest

end

/-- A value on one line. -/
def compact (value : Json) : String :=
  String.ofList (compactChars value)

/-- A value over as many lines as it has parts. -/
def indented (value : Json) : String :=
  String.ofList (indentedChars 0 value)

end BitSerial.Json
