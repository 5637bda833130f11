/-!
# Lines

A line ends at a line feed, together with a carriage return right before it.
Text behind the last line feed is one more line unless it is empty.
-/

namespace BitSerial.Text

/-- Take one carriage return off the end of a line kept newest first. -/
def endLine : List Char → List Char
  | '\r' :: line => line.reverse
  | line => line.reverse

/-- The lines of a text behind a line that has begun, newest character first. -/
def linesFrom : List Char → List Char → List (List Char)
  | [], [] => []
  | line, [] => [line.reverse]
  | line, char :: rest =>
      if char = '\n' then endLine line :: linesFrom [] rest else linesFrom (char :: line) rest

/-- The lines of a text. -/
def lines (text : List Char) : List (List Char) :=
  linesFrom [] text

end BitSerial.Text
