/-
The command line: the first word names the tool, and the rest is for it.

Everything is decided elsewhere. This module looks up the files that are
mentioned, reads the clock, draws random bytes, and carries out what a tool
says is to be done.
-/
import Chip8.Picture.Png
import Chip8.Tool.FontViewer
import Chip8.Tool.Lister
import Chip8.Tool.Runner

namespace Chip8.Main

open Chip8.Tool

/-! ## The world before -/

/-- The bytes of a file. -/
def bytesOf (data : ByteArray) : List Byte := data.toList.map fun b => BitVec.ofNat 8 b.toNat

/-- The place of a path, `..` taking back the name before it. -/
def placeOf (workingDirectory : Place) (p : Path) : Place :=
  p.parts.foldl (fun place part => if part = ".." then place.dropLast else place ++ [part])
    (if p.isAbsolute then [] else workingDirectory)

/-- What stands at a path. -/
def survey (workingDirectory : Place) (p : Path) : IO (List (Place × FileNode)) := do
  let path := (← IO.currentDir) / p.toString
  let place := placeOf workingDirectory p
  if ← path.isDir then return [(place, .directory)]
  if ← path.pathExists then return [(place, .file (bytesOf (← IO.FS.readBinFile path)))]
  return []

/-- What stands on the way to the given paths. -/
def filesAlong (texts : List String) : IO FileTree := do
  let workingDirectory := (Path.ofString (← IO.currentDir).toString).parts
  let nodes ← texts.mapM fun text => do
    let p := Path.ofString text
    let found ← (List.range (p.parts.length + 1)).mapM fun k =>
      survey workingDirectory { p with parts := p.parts.take k }
    return found.flatten
  return { workingDirectory, nodes := nodes.flatten }

/-- The variables that are looked at. -/
def environment : IO Environment := do
  let names := ["CHIP8_QUIRKS", "CHIP8_SPEED", "CHIP8_SCHEME", "CHIP8_SCALE", "CHIP8_START_HALTED"]
  let found ← names.mapM fun name => return (← IO.getEnv name).map fun value => (name, value)
  return found.filterMap id

/-- A reading of the clock, in seconds. -/
def now : IO Float := return (← IO.monoNanosNow).toFloat / 1000000000.0

/-! ## What is to be done -/

/-- Carries out one thing. -/
def perform : Event → IO Unit
  | .out text => do
    let out ← IO.getStdout
    out.putStr text
    out.flush
  | .err text => do (← IO.getStderr).putStr text
  | .pause seconds => IO.sleep (seconds * 1000.0).toUInt32
  | .write place (.text text) => IO.FS.writeFile ("/" ++ String.intercalate "/" place) text
  | .write place (.picture picture) =>
    IO.FS.writeBinFile ("/" ++ String.intercalate "/" place) (Picture.Png.encode picture)

/-- Carries out what is left to do, and gives the exit code. -/
def conclude (o : Outcome) : IO UInt32 := do
  o.events.forM perform
  match o.ending with
  | .exit code => return code.toNat.toUInt32
  | .usage =>
    perform (sayErr "Error: invalid arguments. Try '--help' for help.")
    return ExitCode.invalidArguments.toNat.toUInt32
  | .nullInPath =>
    perform (sayErr ("Error: " ++ nullInPathMessage))
    return ExitCode.machineError.toNat.toUInt32
  | .tooFast e =>
    perform (sayErr ("Error: " ++ e.message))
    return ExitCode.machineError.toNat.toUInt32

/-- A session with the clock and the next random byte as they are now. -/
def refreshed (s : Session) : IO Session := do
  let byte : Byte := BitVec.ofNat 8 (← IO.rand 0 255)
  let time ← now
  let machine := { s.run.machine with clock := .constant time, random := .constant byte }
  return { s with run := { s.run with machine } }

/-- Steps a session to its end, carrying out each step's events at once. -/
def play (s : Runner.Start) : IO Runner.Start := do
  let mut session := s.session
  for _ in [0:s.request.limit.toNat] do
    if session.isOver then break
    session := (← refreshed session).advance s.pace
    session.log.reverse.forM perform
    session := { session with log := [] }
  return { s with session }

/-- The runner in real time. -/
def runner (arguments : List String) : IO UInt32 := do
  let files ← filesAlong (Runner.paths arguments)
  let cache : SettingsCache := { environment := ← environment }
  let opening := (Runner.prepare files cache (.constant (← now)) (.constant 0) none arguments).1
  match opening with
  | .ended o => conclude o
  | .started s =>
    s.session.log.reverse.forM perform
    let s ← play { s with session := { s.session with log := [] } }
    conclude (Runner.finish files s.request s.settings s.session)

/-- Runs the tool of a name. -/
def dispatch : List String → IO UInt32
  | tool :: arguments => do
    if tool = Runner.name then runner arguments
    else if tool = Lister.name then
      conclude (Lister.run (← filesAlong (Lister.paths arguments)) arguments)
    else if tool = FontViewer.name then
      conclude (FontViewer.run (← filesAlong (FontViewer.paths arguments)) arguments)
    else conclude { ending := .usage }
  | [] => conclude { ending := .usage }

end Chip8.Main

/-- Runs the tool that the first word names. -/
def main (arguments : List String) : IO UInt32 := Chip8.Main.dispatch arguments
