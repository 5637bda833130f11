import BitSerial.Debugger
import BitSerial.Screen

/-!
# Debugger view

The debugger's screen.  On the left, three fifths wide, stand main memory, the
registers and the status; on the right the printed numbers and the keys.  Main
memory and the printed numbers take whatever height the others leave.
-/

namespace BitSerial.Debugger

variable {geometry : Geometry}

/-- A mark if it applies, else a blank. -/
def mark (applies : Bool) (glyph : Char) : Char :=
  if applies then glyph else ' '

/-- The text of a memory row: breakpoint, counter and head marks, the address,
its label and the statement. -/
def rowText (debugger : Debugger geometry) (row : MemoryRow) : List Char :=
  let label : List Char :=
    match debugger.labelAt? row.address with
    | some label => label.toList ++ [':']
    | none => []
  [mark row.atBreakpoint '●', mark row.atCounter '▶', mark row.atHead '◉', ' '] ++
    Numeral.padded 4 (Numeral.decimal row.address) ++ ':' :: ' ' :: label.rightpad 10 ' ' ++
    ' ' :: row.text

/-- The style of a memory row: the counter's stands out, then breakpoints, and
idle words step back. -/
def rowStyle (row : MemoryRow) : Style :=
  if row.atCounter then { colour := some .yellow, bold := true }
  else if row.atBreakpoint then .coloured .red
  else if row.text = "NOP".toList then .coloured .darkGrey
  else .plain

/-- Main memory from the scroll position on. -/
def memoryPanel (debugger : Debugger geometry) (height : Nat) : Panel where
  title := " Main memory (▶ pc  ◉ head) ".toList
  border := .coloured .cyan
  fill := .plain
  lines := (debugger.memoryRows (height - 2)).map fun row =>
    .uniform (rowStyle row) (debugger.rowText row)

/-- A bit as a cell, ones brighter than zeros. -/
def bitCell (bit : Bit) : Cell :=
  ⟨Bit.digit bit, .coloured (if bit then .green else .darkGrey)⟩

/-- A register's line, head first, and its value. -/
def registerLine (registers : Registers) (name : RegisterName) : StyledLine where
  cells :=
    Cell.text .plain (name.letter.toList ++ [':', ' ']) ++
      (registers.get name).bits.map bitCell ++
      Cell.text .plain (" = ".toList ++ Numeral.signed (Word.signed (registers.peek name)))
  fill := .plain

/-- What the machine has counted, and whether it runs. -/
def countLine (machine : Machine geometry) : StyledLine where
  cells :=
    Cell.text .plain "Cycles: ".toList ++
      Cell.text (.coloured .cyan) (Numeral.decimal machine.cycles.toNat) ++
      Cell.text .plain "   Ticks: ".toList ++
      Cell.text (.coloured .cyan) (Numeral.decimal machine.ticks.toNat) ++
      Cell.text .plain "   State: ".toList ++
      Cell.text (.coloured (if machine.isRunning then .green else .red)) machine.state.name.toList
  fill := .plain

/-- The registers and counts. -/
def registerPanel (debugger : Debugger geometry) : Panel where
  title := " Registers ".toList
  border := .coloured .green
  fill := .plain
  lines :=
    [RegisterName.a, RegisterName.b, RegisterName.s].map
      (registerLine debugger.machine.registers) ++ [countLine debugger.machine]

/-- The last report. -/
def statusPanel (debugger : Debugger geometry) : Panel where
  title := " Status ".toList
  border := .coloured .white
  fill := .coloured .white
  lines := [.uniform (.coloured .white) debugger.status.message.toList]

/-- A printed number with its place. -/
def outputLine (value : Int) (place : Nat) : StyledLine :=
  .uniform .plain
    ((Numeral.decimal place).leftpad 4 ' ' ++ ':' :: ' ' :: Numeral.signed value)

/-- The printed numbers that fit, newest at the bottom. -/
def outputPanel (debugger : Debugger geometry) (height : Nat) : Panel where
  title := " Output ".toList
  border := .coloured .magenta
  fill := .plain
  lines :=
    let values := debugger.machine.output.toList
    let first := values.length - (height - 2)
    (values.drop first).zipIdx first |>.map fun (value, place) => outputLine value place

/-- The keys. -/
def helpPanel : Panel where
  title := " Help ".toList
  border := .coloured .darkGrey
  fill := .coloured .darkGrey
  lines :=
    ["s: Step  r: Run  p: Pause  b: Breakpoint", "x: Reset  ↑↓: Scroll memory  q: Quit"].map
      fun line => .uniform (.coloured .darkGrey) line.toList

/-- The screen of a given size. -/
def draw (debugger : Debugger geometry) (width height : Nat) : List (List Cell) :=
  let leftWidth := 3 * width / 5
  let rightWidth := width - leftWidth
  let memoryHeight := height - 10
  let outputHeight := height - 4
  let left :=
    (debugger.memoryPanel memoryHeight).draw leftWidth memoryHeight ++
      debugger.registerPanel.draw leftWidth 7 ++
      debugger.statusPanel.draw leftWidth 3
  let right :=
    (debugger.outputPanel outputHeight).draw rightWidth outputHeight ++
      helpPanel.draw rightWidth 4
  beside left right

end BitSerial.Debugger
