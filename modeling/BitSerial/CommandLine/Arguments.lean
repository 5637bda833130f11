import BitSerial.Limits
import BitSerial.Text.Numeral

/-!
# Arguments

The words behind the program's name: options of the machine before or behind a
command, the command, and its own options and operands.  An option's value
stands in the same word or in the next one, which must not begin like an
option.  Short options may share a word; behind `--` every word is an operand.
-/

namespace BitSerial.CommandLine

/-- What a command is for. -/
inductive CommandName
  | run
  | debug
  | assemble
  | disassemble
  deriving DecidableEq

/-- The command that a word names. -/
def CommandName.ofWord? : String → Option CommandName
  | "run" => some .run
  | "debug" => some .debug
  | "asm" => some .assemble
  | "disasm" => some .disassemble
  | _ => none

/-- Where an argument stands: before any command or behind one. -/
inductive Level
  | top
  | behind (command : CommandName)
  deriving DecidableEq

/-- Options without a value. -/
inductive Switch
  | trace
  | version
  deriving DecidableEq

/-- Options with a value. -/
inductive ValueOption
  | config
  | mainWords
  | maxCycles
  | output
  deriving DecidableEq

/-- An option of either kind. -/
inductive OptionName
  | switch (name : Switch)
  | value (name : ValueOption)
  deriving DecidableEq

namespace Level

/-- The option that a long name means at a level. -/
def long? (level : Level) (name : List Char) : Option OptionName :=
  if name = "config".toList then some (.value .config)
  else if name = "main-words".toList then some (.value .mainWords)
  else if name = "trace".toList then some (.switch .trace)
  else if name = "version".toList ∧ level = .top then some (.switch .version)
  else if name = "max-cycles".toList ∧ level = .behind .run then some (.value .maxCycles)
  else if name = "output".toList ∧ level = .behind .assemble then some (.value .output)
  else none

/-- The option that a letter means at a level. -/
def short? (level : Level) (letter : Char) : Option OptionName :=
  if letter = 't' then some (.switch .trace)
  else if letter = 'V' ∧ level = .top then some (.switch .version)
  else if letter = 'm' ∧ level = .behind .run then some (.value .maxCycles)
  else if letter = 'o' ∧ level = .behind .assemble then some (.value .output)
  else none

/-- How many operands there must be at a level. -/
def arity : Level → Nat
  | .top => 0
  | .behind _ => 1

/-- The command that a word begins at a level. -/
def command? (level : Level) (word : String) : Option CommandName :=
  match level with
  | .top => CommandName.ofWord? word
  | .behind _ => none

end Level

/-- What was asked for at a level. -/
structure Settings where
  config : Option String := none
  mainWords : Option Nat := none
  trace : Bool := false
  maxCycles : Option Nat := none
  output : Option String := none
  /-- Operands, newest first. -/
  operands : List String := []
  deriving DecidableEq

/-- Why reading the arguments ended before the last one. -/
inductive Stop
  /-- They make no sense. -/
  | refused
  /-- The version was asked for. -/
  | version
  deriving DecidableEq

namespace Settings

/-- A count below 2^64.  A plus sign may stand in front. -/
def count? (value : List Char) : Option Nat :=
  let digits :=
    match value with
    | '+' :: digits => digits
    | digits => digits
  (Numeral.read? 10 digits).filter (· < countLimit)

/-- Fill a place that must be empty so far. -/
def fill {α : Type} (place value : Option α) : Except Stop (Option α) :=
  match place, value with
  | none, some value => .ok (some value)
  | _, _ => .error .refused

/-- Take in an option's value. -/
def assign (name : ValueOption) (value : List Char) (settings : Settings) :
    Except Stop Settings :=
  match name with
  | .config =>
      (fill settings.config (some (String.ofList value))).map fun config =>
        { settings with config }
  | .mainWords =>
      (fill settings.mainWords (count? value)).map fun mainWords =>
        { settings with mainWords }
  | .maxCycles =>
      (fill settings.maxCycles (count? value)).map fun maxCycles =>
        { settings with maxCycles }
  | .output =>
      (fill settings.output (some (String.ofList value))).map fun output =>
        { settings with output }

/-- Take in an option without a value. -/
def turnOn (name : Switch) (settings : Settings) : Except Stop Settings :=
  match name with
  | .version => .error .version
  | .trace => if settings.trace then .error .refused else .ok { settings with trace := true }

/-- Take in an operand, if there is room for one. -/
def addOperand (level : Level) (operand : String) (settings : Settings) :
    Except Stop Settings :=
  if settings.operands.length < level.arity then
    .ok { settings with operands := operand :: settings.operands }
  else
    .error .refused

end Settings

/-- Settings, and the option whose value the next word must be. -/
structure Reading where
  settings : Settings
  waiting : Option ValueOption := none

/-- Read the letters of a word behind its hyphen. -/
def readLetters (level : Level) : List Char → Settings → Except Stop Reading
  | [], settings => .ok { settings }
  | letter :: rest, settings =>
      match level.short? letter with
      | none => .error .refused
      | some (.switch name) =>
          match settings.turnOn name with
          | .ok settings => readLetters level rest settings
          | .error stop => .error stop
      | some (.value name) =>
          match rest with
          | [] => .ok { settings, waiting := some name }
          | '=' :: value | value => (settings.assign name value).map fun settings => { settings }

/-- Read a word behind its two hyphens. -/
def readLong (level : Level) (word : List Char) (settings : Settings) : Except Stop Reading :=
  let name := word.takeWhile (· ≠ '=')
  match level.long? name, word.dropWhile (· ≠ '=') with
  | none, _ => .error .refused
  | some (.switch name), [] => (settings.turnOn name).map fun settings => { settings }
  | some (.switch _), _ => .error .refused
  | some (.value name), [] => .ok { settings, waiting := some name }
  | some (.value name), _ :: value => (settings.assign name value).map fun settings => { settings }

/-- Take in words that are all operands. -/
def readOperands (level : Level) : List String → Settings → Except Stop Settings
  | [], settings => .ok settings
  | word :: rest, settings =>
      match settings.addOperand level word with
      | .ok settings => readOperands level rest settings
      | .error stop => .error stop

/-- The settings of a level, and the command that ends it with the words behind
it. -/
abbrev LevelEnd : Type :=
  Settings × Option (CommandName × List String)

/-- Read the words of a level. -/
def readWords (level : Level) : List String → Reading → Except Stop LevelEnd
  | [], ⟨settings, none⟩ => .ok (settings, none)
  | [], ⟨_, some _⟩ => .error .refused
  | word :: rest, ⟨settings, waiting⟩ =>
      match word.toList, waiting with
      | ['-', '-'], none =>
          (readOperands level rest settings).map fun settings => (settings, none)
      | '-' :: '-' :: long, none =>
          match readLong level long settings with
          | .ok reading => readWords level rest reading
          | .error stop => .error stop
      | '-' :: letter :: letters, none =>
          match readLetters level (letter :: letters) settings with
          | .ok reading => readWords level rest reading
          | .error stop => .error stop
      | '-' :: _ :: _, some _ => .error .refused
      | value, some name =>
          match settings.assign name value with
          | .ok settings => readWords level rest { settings }
          | .error stop => .error stop
      | _, none =>
          match level.command? word with
          | some command => .ok (settings, some (command, rest))
          | none =>
              match settings.addOperand level word with
              | .ok settings => readWords level rest { settings }
              | .error stop => .error stop

/-- A command with its operand and options. -/
inductive Command
  /-- Run a program for at most a number of instructions. -/
  | run (program : String) (maxCycles : Nat)
  /-- Watch a program. -/
  | debug (program : String)
  /-- Make an image of a source. -/
  | assemble (source : String) (output : Option String)
  /-- List an image. -/
  | disassemble (image : String)
  deriving DecidableEq

/-- What the program is asked to do. -/
inductive Invocation
  /-- Show the version. -/
  | version
  /-- Do a command, or nothing but introduce the program. -/
  | command (config : Option String) (mainWords : Option Nat) (trace : Bool)
      (command : Option Command)
  deriving DecidableEq

/-- Instructions that a run may execute unless told otherwise. -/
def standardMaxCycles : Nat :=
  10000

/-- The command that a name and the settings behind it make. -/
def Command.ofSettings? (name : CommandName) (settings : Settings) : Option Command :=
  match settings.operands with
  | [operand] =>
      match name with
      | .run => some (.run operand (settings.maxCycles.getD standardMaxCycles))
      | .debug => some (.debug operand)
      | .assemble => some (.assemble operand settings.output)
      | .disassemble => some (.disassemble operand)
  | _ => none

/-- The invocation that settings before a command make. -/
def Invocation.plain (settings : Settings) : Invocation :=
  .command settings.config settings.mainWords settings.trace none

/-- The invocation that settings before and behind a command make.  The ones
behind it count first. -/
def Invocation.withCommand? (before : Settings) (name : CommandName) (behind : Settings) :
    Option Invocation :=
  (Command.ofSettings? name behind).map fun command =>
    .command (behind.config <|> before.config) (behind.mainWords <|> before.mainWords)
      (behind.trace || before.trace) (some command)

/-- What the arguments ask for, if they make sense. -/
def Invocation.ofArguments? (arguments : List String) : Option Invocation :=
  match readWords .top arguments { settings := {} } with
  | .error .version => some .version
  | .error .refused => none
  | .ok (settings, none) => some (.plain settings)
  | .ok (before, some (name, rest)) =>
      match readWords (.behind name) rest { settings := {} } with
      | .ok (behind, _) => Invocation.withCommand? before name behind
      | .error _ => none

end BitSerial.CommandLine
