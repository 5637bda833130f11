import BitSerial.Text.Unseen

/-!
# Quoted text for inspection

Text in quotes on one line: quote, backslash and the common controls have short
escapes, characters that cannot be seen stand by their code, and the rest stand
for themselves.
-/

namespace BitSerial.Text

/-- A character inside quotes. -/
def quotedChar (char : Char) : List Char :=
  match char with
  | '"' => ['\\', '"']
  | '\\' => ['\\', '\\']
  | '\n' => ['\\', 'n']
  | '\r' => ['\\', 'r']
  | '\t' => ['\\', 't']
  | _ =>
      if char.toNat = 0 then
        ['\\', '0']
      else if 32 ≤ char.toNat ∧ char.toNat < 127 then
        [char]
      else if isUnseen char then
        ['\\', 'u', '{'] ++ Nat.toDigits 16 char.toNat ++ ['}']
      else
        [char]

/-- Text in quotes. -/
def quoted (text : String) : String :=
  String.ofList ('"' :: text.toList.flatMap quotedChar ++ ['"'])

end BitSerial.Text
