/-
The faults of the machine: a word that is no instruction, an instruction that
meets a state it cannot work on, a program that cannot be loaded.

A fault is a cause, and the address of the instruction once it is known. The
kinds of fault form a tree below one root, and each has a name that reports
and logs show.
-/
import Chip8.Numeral

namespace Chip8

namespace Fault

/-- What went wrong. The four general causes carry a description of their own. -/
inductive Cause
  | general (description : String)
  | decoding (description : String) (word : Int)
  | unknownOpcode (word : Int)
  | unknownOperation (family operation word : Int)
  | noSuchRegister (word selector : Int)
  | machine (description : String)
  | stackOverflow
  | stackUnderflow
  | noSuchKey (value : Int)
  | program (description : String)
  | programTooLarge (size limit : Int)
deriving DecidableEq, Repr

/-- The kinds of fault. -/
inductive Kind
  | general
  | decoding
  | unknownOpcode
  | unknownOperation
  | noSuchRegister
  | machine
  | stackOverflow
  | stackUnderflow
  | noSuchKey
  | program
  | programTooLarge
deriving DecidableEq, Repr

/-- The name of a kind in logs and reports. -/
def Kind.name : Kind → String
  | .general => "Chip8Error"
  | .decoding => "DecodeError"
  | .unknownOpcode => "UnknownOpcodeError"
  | .unknownOperation => "UnknownSubcodeError"
  | .noSuchRegister => "InvalidRegisterError"
  | .machine => "MachineError"
  | .stackOverflow => "StackOverflowError"
  | .stackUnderflow => "StackUnderflowError"
  | .noSuchKey => "InvalidKeyError"
  | .program => "ProgramError"
  | .programTooLarge => "ProgramTooLargeError"

/-- A kind and the broader kinds it belongs to, the root last. -/
def Kind.lineage : Kind → List Kind
  | .general => [.general]
  | .decoding => [.decoding, .general]
  | .unknownOpcode => [.unknownOpcode, .decoding, .general]
  | .unknownOperation => [.unknownOperation, .decoding, .general]
  | .noSuchRegister => [.noSuchRegister, .decoding, .general]
  | .machine => [.machine, .general]
  | .stackOverflow => [.stackOverflow, .machine, .general]
  | .stackUnderflow => [.stackUnderflow, .machine, .general]
  | .noSuchKey => [.noSuchKey, .machine, .general]
  | .program => [.program, .general]
  | .programTooLarge => [.programTooLarge, .program, .general]

namespace Cause

/-- The kind of fault a cause gives rise to. -/
def kind : Cause → Kind
  | .general _ => .general
  | .decoding .. => .decoding
  | .unknownOpcode _ => .unknownOpcode
  | .unknownOperation .. => .unknownOperation
  | .noSuchRegister .. => .noSuchRegister
  | .machine _ => .machine
  | .stackOverflow => .stackOverflow
  | .stackUnderflow => .stackUnderflow
  | .noSuchKey _ => .noSuchKey
  | .program _ => .program
  | .programTooLarge .. => .programTooLarge

/-- The wording of a cause. -/
def description : Cause → String
  | .general description => description
  | .decoding description _ => description
  | .unknownOpcode word => "unknown opcode $" ++ Numeral.hex 4 word
  | .unknownOperation family operation word =>
    "unknown sub-operation $" ++ Numeral.hex 0 operation ++ " for family $" ++
      Numeral.hex 0 family ++ " (word $" ++ Numeral.hex 4 word ++ ")"
  | .noSuchRegister word selector =>
    "invalid register index $" ++ Numeral.hex 0 selector ++ " in word $" ++ Numeral.hex 4 word
  | .machine description => description
  | .stackOverflow => "stack overflow"
  | .stackUnderflow => "stack underflow"
  | .noSuchKey value => "invalid key $" ++ Numeral.hex 2 value
  | .program description => description
  | .programTooLarge size limit =>
    "program is " ++ Numeral.decimal size ++ " bytes, must be at most " ++ Numeral.decimal limit ++
      " bytes"

end Cause

end Fault

/-- A cause, and where it struck. -/
structure Fault where
  cause : Fault.Cause
  address : Option Int := none
deriving DecidableEq, Repr

namespace Fault

/-- The kind of the fault's cause. -/
def kind (f : Fault) : Kind := f.cause.kind

/-- The text of a fault: where it struck, if that is known, and why. -/
def message (f : Fault) : String :=
  match f.address with
  | some a => "error at $" ++ Numeral.hex 4 a ++ ": " ++ f.cause.description
  | none => "error: " ++ f.cause.description

/-- The same fault at an address found out later, or with none. -/
def locate (f : Fault) (address : Option Int) : Fault := { f with address := address }

end Fault

end Chip8
