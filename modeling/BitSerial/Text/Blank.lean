/-!
# Blank characters

The characters that Unicode counts as white space, and the ways in which they
bound text: trimming takes them off both ends, words are the runs between them.
-/

namespace BitSerial.Text

/-- A character of the property `White_Space`. -/
def isBlank (char : Char) : Bool :=
  let code := char.toNat
  (0x9 ≤ code && code ≤ 0xD) || code = 0x20 || code = 0x85 || code = 0xA0 || code = 0x1680 ||
    (0x2000 ≤ code && code ≤ 0x200A) || code = 0x2028 || code = 0x2029 || code = 0x202F ||
    code = 0x205F || code = 0x3000

/-- A text without the blanks at its front. -/
def trimLeft (text : List Char) : List Char :=
  text.dropWhile isBlank

/-- A text without the blanks at its end. -/
def trimRight (text : List Char) : List Char :=
  (trimLeft text.reverse).reverse

/-- A text without the blanks at its ends. -/
def trim (text : List Char) : List Char :=
  trimRight (trimLeft text)

/-- The runs of characters that a separator does not hold, without empty ones.
The run being read comes first, its characters newest first. -/
def runsFrom (separates : Char → Bool) : List Char → List Char → List (List Char)
  | [], [] => []
  | run, [] => [run.reverse]
  | run, char :: rest =>
      if separates char then
        match run with
        | [] => runsFrom separates [] rest
        | _ => run.reverse :: runsFrom separates [] rest
      else
        runsFrom separates (char :: run) rest

/-- The runs of characters between separators. -/
def runs (separates : Char → Bool) (text : List Char) : List (List Char) :=
  runsFrom separates [] text

/-- The words of a text. -/
def words (text : List Char) : List (List Char) :=
  runs isBlank text

end BitSerial.Text
