import BitSerial.Arithmetic
import BitSerial.Assembly
import BitSerial.Assembly.Error
import BitSerial.Assembly.Literal
import BitSerial.Assembly.Outline
import BitSerial.Assembly.Statement
import BitSerial.Bank
import BitSerial.Bank.Error
import BitSerial.Bank.Request
import BitSerial.Bit
import BitSerial.CommandLine.Arguments
import BitSerial.CommandLine.Commands
import BitSerial.CommandLine.Dialogue
import BitSerial.CommandLine.Disk
import BitSerial.CommandLine.Path
import BitSerial.Debugger
import BitSerial.Debugger.Breakpoints
import BitSerial.Debugger.Status
import BitSerial.Debugger.View
import BitSerial.DelayLine
import BitSerial.DelayLine.Copy
import BitSerial.FileFault
import BitSerial.Geometry
import BitSerial.Geometry.File
import BitSerial.Image
import BitSerial.Instruction
import BitSerial.Json.Printer
import BitSerial.Json.Reader
import BitSerial.Json.Token
import BitSerial.Json.Value
import BitSerial.LabelTable
import BitSerial.Limits
import BitSerial.Listing
import BitSerial.Machine.Load
import BitSerial.Machine.Run
import BitSerial.Machine.State
import BitSerial.Machine.Step
import BitSerial.Program
import BitSerial.Registers
import BitSerial.Rotation
import BitSerial.Screen
import BitSerial.Session
import BitSerial.Snapshot
import BitSerial.StreamOrder
import BitSerial.Text.Blank
import BitSerial.Text.Lines
import BitSerial.Text.Numeral
import BitSerial.Text.Quoted
import BitSerial.Text.Unseen
import BitSerial.Text.UpperCase
import BitSerial.Transfer
import BitSerial.Transfer.Request
import BitSerial.Word
import BitSerial.Main
import BitSerial.Proofs.Arithmetic.Streams
import BitSerial.Proofs.Arithmetic.Words
import BitSerial.Proofs.Arithmetic.Multiplication
import BitSerial.Proofs.Bank.Words
import BitSerial.Proofs.Bank.RandomAccess
import BitSerial.Proofs.Transfer.Words
import BitSerial.Proofs.Machine.InstructionSet
import BitSerial.Proofs.Machine.Refinement
import BitSerial.Proofs.Machine.Loading
import BitSerial.Proofs.Machine.Reachable
import BitSerial.Proofs.Machine.Soundness
import BitSerial.Proofs.Text.UpperCase
import BitSerial.Proofs.Text.Layout
import BitSerial.Proofs.Text.Letters
import BitSerial.Proofs.Text.Marks
import BitSerial.Proofs.Text.Numerals
import BitSerial.Proofs.Assembly.Literals
import BitSerial.Proofs.Assembly.WordStatement
import BitSerial.Proofs.Assembly.WordText
import BitSerial.Proofs.Assembly.ListingText
import BitSerial.Proofs.Assembly.Listings
import BitSerial.Proofs.Assembly.LabelTables
import BitSerial.Proofs.Assembly.Passes
import BitSerial.Proofs.Assembly.Names
import BitSerial.Proofs.Assembly.Labels
import BitSerial.Proofs.Instruction.Opcodes
import BitSerial.Proofs.Instruction.Table
import BitSerial.Proofs.Machine.Faults
import BitSerial.Proofs.Machine.ExactLoading
import BitSerial.Proofs.Word.CarryFree
import BitSerial.Proofs.Machine.ReturnLink
import BitSerial.Proofs.Json.Tokens
import BitSerial.Proofs.Json.Reading
import BitSerial.Proofs.Json.Records
import BitSerial.Proofs.Image.Stored
import BitSerial.Proofs.Machine.Preservation
import BitSerial.Proofs.Machine.Histories
import BitSerial.Proofs.Debugger.Histories
import BitSerial.Proofs.Arithmetic.Timing
import BitSerial.Proofs.Arithmetic.ExactMultiplication
import BitSerial.Proofs.Machine.Timing
import BitSerial.Proofs.Machine.ExactTiming
import BitSerial.Proofs.Machine.Relocation
import BitSerial.Proofs.Machine.PositionIndependence
import BitSerial.Proofs.Instruction.DataAddresses
import BitSerial.Proofs.Instruction.Format
import BitSerial.Proofs.Machine.Stepping
import BitSerial.Proofs.Machine.BoundedRuns
import BitSerial.Proofs.Debugger.Transparency
import BitSerial.Proofs.CommandLine.Files
import BitSerial.Proofs.CommandLine.Transcripts
import BitSerial.Proofs.CommandLine.Runs
import BitSerial.Proofs.CommandLine.StoredRuns
import BitSerial.Proofs.CommandLine.ReferenceRuns
import BitSerial.Proofs.Assembly.Grammar
import BitSerial.Proofs.Assembly.FirstPass
import BitSerial.Proofs.Assembly.SecondPass
import BitSerial.Proofs.Assembly.Acceptance
import BitSerial.Proofs.Assembly.Alikeness
import BitSerial.Proofs.Assembly.Respelling
import BitSerial.Proofs.DelayLine.Revolutions
import BitSerial.Proofs.Registers.Overwriting
import BitSerial.Proofs.Arithmetic.ExactAddition
import BitSerial.Proofs.Arithmetic.ExactShifts
import BitSerial.Proofs.Bank.Passing
import BitSerial.Proofs.Transfer.ExactTransfers
import BitSerial.Proofs.Transfer.ExactCollation
import BitSerial.Proofs.Machine.CountedPulses
import BitSerial.Proofs.Debugger.Reachable
import BitSerial.Proofs.Debugger.Stops
import BitSerial.Proofs.Assembly.WordSource
import BitSerial.Proofs.Text.Digits
import BitSerial.Proofs.Assembly.NumberTexts
import BitSerial.Proofs.Assembly.NumberOperands
import BitSerial.Proofs.Machine.RunLimits
import BitSerial.Proofs.Session.Histories
import BitSerial.Proofs.Debugger.MemoryView
import BitSerial.Proofs.Bank.Alignment
import BitSerial.Proofs.DelayLine.Delay
import BitSerial.Proofs.Machine.Sizes
import BitSerial.Proofs.CommandLine.Paths
import BitSerial.Proofs.CommandLine.Sources
import BitSerial.Proofs.Assembly.ListingGrammar
import BitSerial.Proofs.Image.Labels
import BitSerial.Proofs.StreamOrder.Numbers
import BitSerial.Proofs.DelayLine.Inscriptions
import BitSerial.Proofs.Bank.Independence
import BitSerial.Proofs.Bank.Tapes
import BitSerial.Proofs.Debugger.Scrolling
