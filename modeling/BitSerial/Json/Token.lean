import BitSerial.Json.Value

/-!
# Tokens of the JSON notation

The lexical half of reading: blanks are dropped, marks, words, numbers and
quoted text become tokens.  The notation is taken strictly: no leading zeros
that run on, no sign but minus, no raw control characters, no unknown escapes.
Escapes that leave half of a surrogate pair make a text unreadable without
making it ill-formed.
-/

namespace BitSerial.Json

/-- A lexical unit. -/
inductive Token where
  | openObject
  | closeObject
  | openArray
  | closeArray
  | colon
  | comma
  /-- A number, a truth value or `null`. -/
  | scalar (value : Json)
  /-- Quoted text, or none when its escapes spell no Unicode text. -/
  | text (content : Option String)

/-- What may stand between tokens. -/
def isSpace (char : Char) : Bool :=
  char = ' ' || char = '\n' || char = '\t' || char = '\r'

/-! ## Quoted text -/

/-- Text read so far: its characters newest first, the first half of a
surrogate pair that waits for the second, and whether a half was left alone. -/
structure Spelling where
  chars : List Char := []
  half : Option Nat := none
  broken : Bool := false

namespace Spelling

/-- A half that still waits is left alone. -/
def settle (spelling : Spelling) : Spelling :=
  { spelling with half := none, broken := spelling.broken || spelling.half.isSome }

/-- A character that stands for itself or was escaped by name. -/
def char (spelling : Spelling) (char : Char) : Spelling :=
  let settled := spelling.settle
  { settled with chars := char :: settled.chars }

/-- A code unit.  Two units that form a surrogate pair are one character. -/
def unit (spelling : Spelling) (unit : Nat) : Spelling :=
  if 0xDC00 ≤ unit ∧ unit ≤ 0xDFFF then
    match spelling.half with
    | some high =>
        let code := 0x10000 + (high - 0xD800) * 0x400 + (unit - 0xDC00)
        { spelling with chars := Char.ofNat code :: spelling.chars, half := none }
    | none => { spelling with broken := true }
  else if 0xD800 ≤ unit ∧ unit ≤ 0xDBFF then
    { spelling.settle with half := some unit }
  else
    spelling.char (Char.ofNat unit)

/-- The text, if every half found its other half. -/
def content (spelling : Spelling) : Option String :=
  let settled := spelling.settle
  if settled.broken then none else some (String.ofList settled.chars.reverse)

end Spelling

/-- The character that an escape names. -/
def escaped? : Char → Option Char
  | '"' => some '"'
  | '\\' => some '\\'
  | '/' => some '/'
  | 'b' => some '\x08'
  | 'f' => some '\x0c'
  | 'n' => some '\n'
  | 'r' => some '\r'
  | 't' => some '\t'
  | _ => none

/-- The rest of a quoted text, behind what was read of it, and what follows
its closing quote. -/
def text? (spelling : Spelling) : List Char → Option (Option String × List Char)
  | [] => none
  | '"' :: rest => some (spelling.content, rest)
  | '\\' :: 'u' :: first :: second :: third :: fourth :: rest =>
      match Numeral.read? 16 [first, second, third, fourth] with
      | some unit => text? (spelling.unit unit) rest
      | none => none
  | '\\' :: name :: rest =>
      match escaped? name with
      | some char => text? (spelling.char char) rest
      | none => none
  | char :: rest => if char.toNat < 32 then none else text? (spelling.char char) rest

/-! ## Numbers -/

/-- A run of digits, at least one, and what follows it. -/
def digits? (chars : List Char) : Option (List Char × List Char) :=
  match chars.span Numeral.isDecimal with
  | ([], _) => none
  | (digits, rest) => some (digits, rest)

/-- The digits before the point: a zero alone, or a run that starts with none. -/
def wholePart? : List Char → Option (List Char × List Char)
  | '0' :: rest => some (['0'], rest)
  | chars => digits? chars

/-- The digits after a point, if there is one. -/
def fraction? : List Char → Option (Option (List Char) × List Char)
  | '.' :: rest => (digits? rest).map fun (digits, rest) => (some digits, rest)
  | chars => some (none, chars)

/-- The power of ten after an exponent mark, if there is one. -/
def exponent? : List Char → Option (Option Int × List Char)
  | mark :: rest =>
      if mark = 'e' ∨ mark = 'E' then
        let (negative, rest) :=
          match rest with
          | '-' :: rest => (true, rest)
          | '+' :: rest => (false, rest)
          | _ => (false, rest)
        (digits? rest).map fun (digits, rest) =>
          let power := Nat.ofDigitChars 10 digits 0
          (some (if negative then -(power : Int) else power), rest)
      else
        some (none, mark :: rest)
  | [] => some (none, [])

/-- The value of a number from its parts.  Without fraction and exponent it is
an integer, but for a negative zero. -/
def numberOf (negative : Bool) (whole : List Char) (fraction : Option (List Char))
    (exponent : Option Int) : Json :=
  let places := fraction.getD []
  let magnitude : Int := Nat.ofDigitChars 10 (whole ++ places) 0
  let mantissa := if negative then -magnitude else magnitude
  if fraction.isNone ∧ exponent.isNone ∧ ¬(negative ∧ magnitude = 0) then
    .integer mantissa
  else
    .decimal mantissa (exponent.getD 0 - places.length)

/-- A number at the start, and what follows it. -/
def number? (chars : List Char) : Option (Json × List Char) :=
  let (negative, chars) :=
    match chars with
    | '-' :: rest => (true, rest)
    | _ => (false, chars)
  (wholePart? chars).bind fun (whole, chars) =>
    (fraction? chars).bind fun (fraction, chars) =>
      (exponent? chars).map fun (exponent, chars) =>
        (numberOf negative whole fraction exponent, chars)

/-! ## The token list -/

/-- The token at the start, and what follows it. -/
def token? : List Char → Option (Token × List Char)
  | [] => none
  | '{' :: rest => some (.openObject, rest)
  | '}' :: rest => some (.closeObject, rest)
  | '[' :: rest => some (.openArray, rest)
  | ']' :: rest => some (.closeArray, rest)
  | ':' :: rest => some (.colon, rest)
  | ',' :: rest => some (.comma, rest)
  | '"' :: rest => (text? {} rest).map fun (content, rest) => (.text content, rest)
  | 'n' :: 'u' :: 'l' :: 'l' :: rest => some (.scalar .null, rest)
  | 't' :: 'r' :: 'u' :: 'e' :: rest => some (.scalar (.bool true), rest)
  | 'f' :: 'a' :: 'l' :: 's' :: 'e' :: rest => some (.scalar (.bool false), rest)
  | chars => (number? chars).map fun (value, rest) => (.scalar value, rest)

/-- The tokens of a text behind those already found, which are kept newest
first.  Every token takes at least one character, so the length of the text is
fuel enough. -/
def tokensWithin : Nat → List Token → List Char → Option (List Token)
  | _, found, [] => some found.reverse
  | 0, _, _ :: _ => none
  | fuel + 1, found, char :: rest =>
      if isSpace char then
        tokensWithin fuel found rest
      else
        match token? (char :: rest) with
        | some (token, rest) => tokensWithin fuel (token :: found) rest
        | none => none

/-- The tokens of a whole text. -/
def tokens? (chars : List Char) : Option (List Token) :=
  tokensWithin chars.length [] chars

end BitSerial.Json
