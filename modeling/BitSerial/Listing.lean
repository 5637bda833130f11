import BitSerial.Instruction
import BitSerial.Program

/-!
# Listings

A program as assembly text.  Addresses, words and jump targets stand in
comments, so a listing can be assembled again.
-/

namespace BitSerial

/-- The statement that puts a word into a program.  Words that are no
instruction are numbers. -/
def Word.text (word : Word) : List Char :=
  match Instruction.decode word with
  | .ok instruction => instruction.text
  | .error _ => "DAT 0x".toList ++ Numeral.padded 10 (Numeral.hexadecimal word.toNat)

/-- How far from the base address a word jumps, if it does so by its
operand. -/
def Word.jumpOffset? (word : Word) : Option Nat :=
  match Instruction.decode word with
  | .ok (.wide .jmp offset) | .ok (.wide .jza offset) | .ok (.wide .jna offset) =>
      some offset.toNat
  | _ => none

namespace Listing

/-- An address. -/
def address (base offset : Nat) : List Char :=
  Numeral.decimal (base + offset)

/-- Where a word jumps to, if it does so by its operand. -/
def note (base : Nat) (word : Word) : List Char :=
  match Word.jumpOffset? word with
  | some offset => " -> ".toList ++ address base offset
  | none => []

/-- The line of a label. -/
def labelLine (label : String) : List Char :=
  label.toList ++ [':', '\n']

/-- The line of a word at an index. -/
def wordLine (base index : Nat) (word : Word) : List Char :=
  List.replicate 8 ' ' ++ (Word.text word).rightpad 20 ' ' ++
    " ; ".toList ++ Numeral.padded 4 (address base index) ++
    "  ".toList ++ Word.display word ++ note base word ++ ['\n']

/-- The lines in front of the first word. -/
def heading (program : Program) : List Char :=
  "; Delay-line disassembly\n; ".toList ++ Numeral.decimal program.size ++
    " words, base address ".toList ++ Numeral.decimal program.base ++ ['\n', '\n']

/-- The lines of the words from an index on, each behind its labels. -/
def body (program : Program) : Nat → List Word → List Char
  | _, [] => []
  | index, word :: rest =>
      (program.labelsAt index).flatMap labelLine ++ wordLine program.base index word ++
        body program (index + 1) rest

/-- Every address that is shown for the words from an index on. -/
def addresses (base : Nat) : Nat → List Word → List Nat
  | _, [] => []
  | index, word :: rest =>
      (base + index) :: ((Word.jumpOffset? word).map (base + ·)).toList ++
        addresses base (index + 1) rest

end Listing

/-- The listing of a program. -/
def Program.listing (program : Program) : String :=
  String.ofList (Listing.heading program ++ Listing.body program 0 program.words)

/-- The listing of any program.  There is none if an address in it is no count. -/
def Program.listing? (program : Program) : Option String :=
  if (Listing.addresses program.base 0 program.words).all (· < countLimit) then
    some program.listing
  else
    none

end BitSerial
