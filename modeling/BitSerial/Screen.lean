/-!
# Screens

Text in coloured cells, put together from rows.  A panel is a box with a title
on its upper border; what is too long for it is cut, and what is too short is
filled up.
-/

namespace BitSerial

/-- A foreground colour. -/
inductive Colour
  | yellow
  | red
  | darkGrey
  | cyan
  | green
  | magenta
  | white
  deriving DecidableEq

/-- How a cell is shown. -/
structure Style where
  /-- The foreground, the terminal's own if there is none. -/
  colour : Option Colour := none
  bold : Bool := false
  deriving DecidableEq

namespace Style

/-- Nothing special. -/
def plain : Style :=
  {}

/-- A foreground and nothing else. -/
def coloured (colour : Colour) : Style :=
  { colour := some colour }

end Style

/-- One character with its style. -/
structure Cell where
  glyph : Char
  style : Style
  deriving DecidableEq

namespace Cell

/-- A blank cell. -/
def blank (style : Style) : Cell :=
  ⟨' ', style⟩

/-- A text in one style. -/
def text (style : Style) (chars : List Char) : List Cell :=
  chars.map fun glyph => ⟨glyph, style⟩

end Cell

/-- A text with the style of the blanks behind it. -/
structure StyledLine where
  cells : List Cell
  fill : Style

namespace StyledLine

/-- A text in one style, blanks included. -/
def uniform (style : Style) (chars : List Char) : StyledLine :=
  ⟨Cell.text style chars, style⟩

/-- The line cut or filled up to a width. -/
def fit (width : Nat) (line : StyledLine) : List Cell :=
  (line.cells.take width).rightpad width (Cell.blank line.fill)

@[simp]
theorem length_fit (width : Nat) (line : StyledLine) : (line.fit width).length = width := by
  rw [fit, List.rightpad, List.length_append, List.length_replicate, List.length_take]
  omega

end StyledLine

/-- A box with a title and lines of text in it. -/
structure Panel where
  title : List Char
  /-- The style of border and title. -/
  border : Style
  /-- The style of the rows below the last line. -/
  fill : Style
  lines : List StyledLine

namespace Panel

/-- The upper border, with the title over it from the second column to the
corner. -/
def top (panel : Panel) (inner : Nat) : List Cell :=
  let edge := (panel.title.take inner).rightpad inner '─'
  Cell.text panel.border ('┌' :: edge ++ ['┐'])

/-- The lower border. -/
def bottom (panel : Panel) (inner : Nat) : List Cell :=
  Cell.text panel.border ('└' :: List.replicate inner '─' ++ ['┘'])

/-- A row between the borders. -/
def row (panel : Panel) (inner : Nat) (line : StyledLine) : List Cell :=
  let side : Cell := ⟨'│', panel.border⟩
  side :: line.fit inner ++ [side]

/-- The lines that fit between the borders, and blank ones up to the last
row. -/
def visible (panel : Panel) (height : Nat) : List StyledLine :=
  (panel.lines.take height).rightpad height ⟨[], panel.fill⟩

/-- The panel's rows for a given outer size. -/
def draw (panel : Panel) (width height : Nat) : List (List Cell) :=
  let inner := width - 2
  panel.top inner :: (panel.visible (height - 2)).map (panel.row inner) ++ [panel.bottom inner]

theorem length_draw (panel : Panel) {width height : Nat} (tall : 2 ≤ height) :
    (panel.draw width height).length = height := by
  simp only [draw, visible, List.rightpad, List.length_append, List.length_cons, List.length_map,
    List.length_replicate, List.length_take, List.length_nil]
  omega

end Panel

/-- Rows of cells side by side. -/
def beside (left right : List (List Cell)) : List (List Cell) :=
  List.zipWith (· ++ ·) left right

end BitSerial
