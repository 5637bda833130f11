import BitSerial.Assembly
import BitSerial.CommandLine.Arguments
import BitSerial.CommandLine.Dialogue
import BitSerial.Debugger
import BitSerial.Geometry.File
import BitSerial.Image

/-!
# Commands

What the program says and does for each invocation, as a dialogue.  A command
that cannot go on complains and ends with code 1, or with code 101 if memory has no
room for its machine.
-/

namespace BitSerial.CommandLine

open Dialogue

/-- Go on with a success, or fail with the text of an error. -/
def orFail {ε α : Type} (reason : ε → String) : Except ε α → Dialogue α
  | .ok value => pure value
  | .error error => fail (reason error)

/-- Fail with the text of a machine error behind some words, or break off if
memory has no room for the machine. -/
def failWith {α : Type} (words : String) : MachineError → Dialogue α
  | .capacity => breakOff MachineError.capacity.message
  | error => fail (words ++ error.message)

/-! ## Files -/

/-- The geometry in a file. -/
def readGeometry (path : String) : Dialogue Geometry := do
  let reason (error : GeometryFileError) : String := "Failed to load config: " ++ error.message
  let text ← orFail (fun fault => reason (.inaccessible fault)) (← readFile path)
  orFail reason (Geometry.parse text)

/-- The geometry that the options ask for. -/
def chooseGeometry (config : Option String) (mainWords : Option Nat) : Dialogue Geometry := do
  let given ←
    match config with
    | none => pure {}
    | some path => readGeometry path
  let geometry := { given with mainWords := mainWords.getD given.mainWords }
  match geometry.validate with
  | .ok _ => return geometry
  | .error error => fail ("Invalid machine configuration: " ++ error.message)

/-- The program that a source file assembles to. -/
def readSource (geometry : Geometry) (path : String) : Dialogue Program := do
  let source ← orFail (fun fault => "Failed to read file: " ++ fault.message) (← readFile path)
  orFail (fun error => "Assembly error: " ++ error.message) (Program.assemble geometry source)

/-- The image in a file. -/
def readImage (path : String) : Dialogue Image := do
  let reason (error : ImageError) : String := "Failed to load image: " ++ error.message
  let text ← orFail (fun fault => reason (.inaccessible fault)) (← readFile path)
  orFail reason (Image.parse text)

/-- Whether a path names a source by its ending. -/
def isSource (path : String) : Bool :=
  ".asm".toList.isSuffixOf path.toList

/-- The program in a file and the geometry to load it with.  A source is
assembled for the chosen geometry; an image brings the size of its main memory
along. -/
def readProgram (geometry : Geometry) (path : String) : Dialogue (Geometry × Program) := do
  if isSource path then
    let program ← readSource geometry path
    printLine s!"📝 Assembled {program.size} words at base {program.base}"
    return (geometry, program)
  else
    let image ← readImage path
    printLine s!"📂 Loaded {image.program.size} words"
    return ({ geometry with mainWords := image.mainWords }, image.program)

/-- A program with at least one word, and the geometry to load it with. -/
def readInstructions (geometry : Geometry) (path : String) : Dialogue (Geometry × Program) := do
  let (geometry, program) ← readProgram geometry path
  if program.words.isEmpty then fail "No instructions to execute"
  return (geometry, program)

/-! ## Running -/

/-- Take a step and go on with the machine it leaves.  Numbers are printed as they
come; a failed step ends the command. -/
def stepThen {geometry : Geometry} {α : Type} (trace : Bool) (machine : Machine geometry)
    (next : Machine geometry → Dialogue α) : Dialogue α := do
  let (place, printed) := (machine.counter.val, machine.output.size)
  let (outcome, after) := machine.step
  printLines ((after.output.extract printed after.output.size).toList.map toString)
  match outcome with
  | .error error => fail ("CPU error at PC=" ++ toString place ++ ": " ++ error.message)
  | .ok instruction =>
      if trace then warn (toString place ++ ": " ++ instruction.mnemonic)
      next after

/-- Steps one after the other, at most a number of them, while the machine
runs. -/
def steps {geometry : Geometry} (trace : Bool) :
    Nat → Machine geometry → Dialogue (Machine geometry)
  | 0, machine => pure machine
  | count + 1, machine =>
      match machine.state with
      | .halted => pure machine
      | .running => stepThen trace machine (steps trace count)

/-- The lines of a bank's words that are not zero. -/
def bankLines (bank : Nat) (words : List Word) : List String :=
  (words.zipIdx.filter fun (word, _) => word ≠ 0).map fun (word, index) =>
    s!"data[{bank}][{index}] = {Word.signed word}"

/-- The lines of all data words that are not zero. -/
def dataLines {geometry : Geometry} (machine : Machine geometry) : List String :=
  machine.data.contents.zipIdx.flatMap fun (words, bank) => bankLines bank words

/-- The state of a machine after a run. -/
def resultLines {geometry : Geometry} (machine : Machine geometry) : List String :=
  ["", "━━━ Result ━━━",
    "Cycles: " ++ toString machine.cycles.toNat,
    "Ticks:  " ++ toString machine.ticks.toNat,
    "State:  " ++ machine.state.name,
    machine.registers.inspect] ++ dataLines machine

/-- Run a program that was read, from loading it to its results. -/
def execute (geometry : Geometry) (trace : Bool) (program : Program) (maxCycles : Nat) :
    Dialogue Unit := do
  let fresh ←
    match Machine.build? geometry with
    | .ok fresh => pure fresh
    | .error error => failWith "" error
  let (outcome, loaded) := fresh.loadProgram program
  orFail (fun error => "Failed to load program: " ++ error.message) outcome
  printLines ["", "━━━ Output ━━━"]
  let machine ← steps trace maxCycles loaded
  printLines (resultLines machine)
  if machine.isRunning then
    printLines ["",
      s!"⚠️  Reached max cycles limit ({maxCycles}). Use --max-cycles to increase."]

/-- Run a program. -/
def runProgram (geometry : Geometry) (trace : Bool) (path : String) (maxCycles : Nat) :
    Dialogue Unit := do
  printLine ("🔧 Running: " ++ path)
  let (geometry, program) ← readInstructions geometry path
  execute geometry trace program maxCycles

/-! ## Other commands -/

/-- Watch a program.  Where there is no terminal this ends once the program is
loaded. -/
def debugProgram (geometry : Geometry) (path : String) : Dialogue Unit := do
  printLine ("🔍 Loading: " ++ path)
  let (geometry, program) ← readInstructions geometry path
  printLines ["🚀 Launching debugger...", ""]
  match Debugger.start geometry program with
  | .error error => failWith "Debugger error: " error
  | .ok _ => fail "Debugger error: no terminal"

/-- The path of an image beside its source. -/
def imagePath (source : String) : String :=
  String.ofList (Path.withExtension "json".toList source.toList)

/-- Whether two paths are the same as spelled. -/
def samePath (left right : String) : Bool :=
  Path.components left.toList = Path.components right.toList

/-- Make an image of a source. -/
def assembleFile (geometry : Geometry) (source : String) (output : Option String) :
    Dialogue Unit := do
  let target := output.getD (imagePath source)
  if samePath target source then fail ("Output path would overwrite the source: " ++ target)
  printLine ("📝 Assembling: " ++ source ++ " → " ++ target)
  let program ← readSource geometry source
  printLine s!"✓ Assembled {program.size} words at base {program.base}"
  let image := Image.ofProgram program geometry.mainWords
  orFail (fun fault => "Failed to save image: " ++ (ImageError.inaccessible fault).message)
    (← writeFile target image.print)
  printLine ("✓ Saved to " ++ target)

/-- List an image. -/
def disassembleFile (path : String) : Dialogue Unit := do
  printLines ["📖 Disassembling: " ++ path, ""]
  let image ← readImage path
  match image.program.listing? with
  | some listing => printLine listing
  | none => breakOff "attempt to add with overflow"

/-- What the program says when it is asked for nothing. -/
def introduction : List String :=
  ["Delay-Line Emulator v0.1.0",
    "A bit-serial stored-program computer emulator",
    "",
    "Use --help for available commands"]

/-- Do a command on machines of a geometry. -/
def Command.perform (geometry : Geometry) (trace : Bool) : Command → Dialogue Unit
  | .run program maxCycles => runProgram geometry trace program maxCycles
  | .debug program => debugProgram geometry program
  | .assemble source output => assembleFile geometry source output
  | .disassemble image => disassembleFile image

/-- Do what was asked for. -/
def Invocation.perform : Invocation → Dialogue Unit
  | .version => printLine "delayline-emu 0.1.0"
  | .command config mainWords trace request => do
      let geometry ← chooseGeometry config mainWords
      match request with
      | some request => request.perform geometry trace
      | none => printLines introduction

/-- The dialogue that arguments start.  Ones that make no sense end it with
code 2. -/
def start (arguments : List String) : Dialogue Unit :=
  match Invocation.ofArguments? arguments with
  | some invocation => invocation.perform
  | none => .complain "error: unexpected arguments" fun _ => .exit 2

end BitSerial.CommandLine
