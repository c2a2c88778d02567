/-
What a tool does to the world: texts on its two streams, pauses, and files,
in order, and how it ends.
-/
import Chip8.FileTree
import Chip8.Settings
import Chip8.Text.ControlSequence
import Chip8.Tool.Arguments
import Chip8.Tool.Problem

namespace Chip8.Tool

/-- One thing that a tool does. -/
inductive Event
  | out (text : String)
  | err (text : String)
  | pause (seconds : Float)
  | write (place : Place) (document : Document)

/-- How a tool ends. -/
inductive Ending
  | exit (code : ExitCode)
  | usage
  | nullInPath
  | tooFast (e : Settings.TooFast)
deriving DecidableEq, Repr

/-- What a tool did, in order, and how it ended. -/
structure Outcome where
  events : List Event := []
  ending : Ending

namespace Outcome

/-- Everything on the output stream. -/
def stdout (o : Outcome) : String :=
  String.join (o.events.filterMap fun
    | .out text => some text
    | _ => none)

/-- Everything on the error stream. -/
def stderr (o : Outcome) : String :=
  String.join (o.events.filterMap fun
    | .err text => some text
    | _ => none)

/-- The lengths of the pauses. -/
def pauses (o : Outcome) : List Float :=
  o.events.filterMap fun
    | .pause seconds => some seconds
    | _ => none

/-- The files written. -/
def written (o : Outcome) : List (Place × Document) :=
  o.events.filterMap fun
    | .write place document => some (place, document)
    | _ => none

end Outcome

/-- A text as a tool shows it: without control sequences, which names and
arguments may hold. -/
def plain (text : String) : String := String.ofList (Text.ControlSequence.remove text.toList)

/-- A line on the output stream. -/
def sayOut (text : String) : Event := .out (plain text ++ "\n")

/-- A line on the error stream. -/
def sayErr (text : String) : Event := .err (plain text ++ "\n")

/-- A line for those who look for faults, if the tool is to be verbose. It
shows everything as it is. -/
def debug (verbose : Bool) (text : String) : List Event :=
  if verbose then [.err ("DEBUG: " ++ text ++ "\n")] else []

/-- The wording of a path with a null character. -/
def nullInPathMessage : String := "embedded null byte"

/-- The end on a command line that cannot be used. -/
def rejected : UsageError → Outcome
  | .nullInPath _ => { ending := .nullInPath }
  | _ => { ending := .usage }

/-- An end with the line and the exit code of a problem. -/
def stop (events : List Event) (label : Option String) (p : Problem) : Outcome :=
  { events := events ++ [sayErr (p.line label)], ending := .exit p.exitCode }

/-- A failure to read a program as a problem. -/
def loadProblem (e : FileTree.LoadError) : Problem :=
  match e with
  | .missing _ => .missingFile e.message
  | .unreadable .. => .unexpected e.message
  | .refused f => .fault f

/-- A file that cannot be written as a problem. -/
def writeProblem (e : FileError) (path : Path) : Problem :=
  match e with
  | .notFound => .missingFile (e.message path)
  | _ => .unexpected (e.message path)

/-- A successful end that tells something and does nothing else. -/
def informed (text : String) : Outcome := { events := [sayOut text], ending := .exit .success }

/-- The line that tells a tool's version. -/
def versionLine (tool : String) : String := tool ++ ", version 1.0.0"

end Chip8.Tool
