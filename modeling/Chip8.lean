import Chip8.FontSheet
import Chip8.Listing
import Chip8.Machine.Dump
import Chip8.Machine.Step
import Chip8.Main
import Chip8.Proofs.Assembly
import Chip8.Proofs.Binary64
import Chip8.Proofs.Decoding
import Chip8.Proofs.Dialect
import Chip8.Proofs.Dump
import Chip8.Proofs.Effect
import Chip8.Proofs.Failure
import Chip8.Proofs.FileTree
import Chip8.Proofs.FontSheet
import Chip8.Proofs.Footprint
import Chip8.Proofs.Halt
import Chip8.Proofs.Instruction
import Chip8.Proofs.Instruction.Arithmetic
import Chip8.Proofs.Instruction.Blocks
import Chip8.Proofs.Instruction.Drawing
import Chip8.Proofs.Instruction.Glyph
import Chip8.Proofs.Instruction.ProgramCounter
import Chip8.Proofs.Instruction.Waiting
import Chip8.Proofs.Key
import Chip8.Proofs.Keypad
import Chip8.Proofs.Keys
import Chip8.Proofs.Listing
import Chip8.Proofs.Listing.Columns
import Chip8.Proofs.Listing.Execution
import Chip8.Proofs.Listing.Lines
import Chip8.Proofs.Listing.Offset
import Chip8.Proofs.Listing.Partition
import Chip8.Proofs.Memory
import Chip8.Proofs.Memory.Image
import Chip8.Proofs.Memory.Ring
import Chip8.Proofs.Numeral
import Chip8.Proofs.Pattern
import Chip8.Proofs.Picture
import Chip8.Proofs.Picture.Look
import Chip8.Proofs.Plain
import Chip8.Proofs.Plain.Drawing
import Chip8.Proofs.Plain.Execution
import Chip8.Proofs.Plain.Operation
import Chip8.Proofs.Plain.Parts
import Chip8.Proofs.Quantity.Bits
import Chip8.Proofs.Quantity.Masking
import Chip8.Proofs.Quantity.Nibble
import Chip8.Proofs.Quantity.Operand
import Chip8.Proofs.Run
import Chip8.Proofs.Screen
import Chip8.Proofs.Screen.Count
import Chip8.Proofs.Screen.Drawings
import Chip8.Proofs.Screen.Sprite
import Chip8.Proofs.Settings
import Chip8.Proofs.Settings.History
import Chip8.Proofs.Settings.Process
import Chip8.Proofs.Step
import Chip8.Proofs.Steps
import Chip8.Proofs.Subroutine
import Chip8.Proofs.Text
import Chip8.Proofs.Text.Blank
import Chip8.Proofs.Text.ControlSequence
import Chip8.Proofs.Text.LetterCase
import Chip8.Proofs.Timers
import Chip8.Proofs.Timers.Countdown
import Chip8.Proofs.Tool.Agreement
import Chip8.Proofs.Tool.Ending
import Chip8.Proofs.Tool.Frame
import Chip8.Proofs.Tool.Line
import Chip8.Proofs.Tool.Lister
import Chip8.Proofs.Tool.Runner
import Chip8.Proofs.Tool.Session
import Chip8.Quantity.Operand
import Chip8.Settings
import Chip8.Tool.FontViewer
import Chip8.Tool.Lister
import Chip8.Tool.Runner
