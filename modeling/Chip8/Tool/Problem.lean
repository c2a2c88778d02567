/-
How the command line tools end: with an exit code, and on a problem with a line
that tells it.

A program that is refused and arguments or files that are unusable are the
user's to mend; a fault in the running program is the program's; anything else
is the tool's own.
-/
import Chip8.Fault

namespace Chip8.Tool

/-- The exit codes of the tools. -/
inductive ExitCode
  | success
  | machineError
  | invalidArguments
  | internalError
deriving DecidableEq, Repr

namespace ExitCode

/-- An exit code as a number. -/
def toNat : ExitCode → Nat
  | success => 0
  | machineError => 1
  | invalidArguments => 2
  | internalError => 3

/-- The name of an exit code. -/
def name : ExitCode → String
  | success => "SUCCESS"
  | machineError => "MACHINE_ERROR"
  | invalidArguments => "INVALID_ARGS"
  | internalError => "INTERNAL_ERROR"

/-- Every exit code, in order. -/
def all : List ExitCode := [success, machineError, invalidArguments, internalError]

end ExitCode

/-- What a tool cannot go on with. -/
inductive Problem
  | fault (f : Fault)
  | badArgument (message : String)
  | missingFile (message : String)
  | forbiddenFile (message : String)
  | unwritten (path message : String)
  | unexpected (message : String)
deriving DecidableEq, Repr

namespace Problem

/-- The exit code for a problem. -/
def exitCode : Problem → ExitCode
  | fault f => if Fault.Kind.program ∈ f.kind.lineage then .invalidArguments else .machineError
  | badArgument _ | missingFile _ | forbiddenFile _ | unwritten .. => .invalidArguments
  | unexpected _ => .internalError

/-- The line that tells a problem. A label goes in front of a fault of the
running program. -/
def line (label : Option String) : Problem → String
  | fault f =>
    if Fault.Kind.program ∈ f.kind.lineage then f.message
    else
      match label with
      | none | some "" => f.message
      | some text => text ++ " " ++ f.message
  | badArgument message | missingFile message | forbiddenFile message => "Error: " ++ message
  | unwritten path message => "Error writing " ++ path ++ ": " ++ message
  | unexpected message => "Internal error: " ++ message

end Problem

end Chip8.Tool
