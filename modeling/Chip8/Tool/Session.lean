/-
The runner at work: steps one after another, each with its lines on the error
stream, a frame if the run is shown live, and a pause.

A pause may be interrupted. That ends the run, and the step before it counts.
-/
import Chip8.Instruction.Assembly
import Chip8.Machine.Step
import Chip8.Tool.Outcome

namespace Chip8.Tool

/-- How a program is stepped. -/
structure Pace where
  press : Option Key.Reference := none
  pause : Option Float := none
  trace : Bool := false
  live : Bool := false
  verbose : Bool := false
  /-- The pause in which the user interrupts, counted from one. -/
  interruptAt : Option Nat := none

/-- A run with what it has done to the streams, the newest first. -/
structure Session where
  run : Run
  log : List Event := []
  pauses : Nat := 0
  interrupted : Bool := false

namespace Session

/-- The screen as text inside a border. -/
def frame (s : Screen) : String :=
  let border := "+" ++ String.ofList (List.replicate Screen.width '-') ++ "+"
  String.intercalate "\n"
    (border :: (s.textRows "#" " ").map (fun row => "|" ++ row ++ "|") ++ [border])

/-- Whether an instruction jumps to itself. -/
def jumpsToItself (e : Executed) : Bool :=
  match e.instruction with
  | .jump target => target.setWidth 16 == e.address
  | _ => false

/-- The lines on a step that was carried out. -/
def stepEvents (p : Pace) (before : Machine) (e : Executed) : List Event :=
  (if jumpsToItself e && !before.halted then
      debug p.verbose ("Self-jump at $" ++ Numeral.hex 4 e.address.toNat ++ ", halting")
    else []) ++
  (if p.trace then
      [sayErr ("$" ++ Numeral.hex 3 e.address.toNat ++ ": " ++ e.instruction.assembly)]
    else [])

/-- The lines on a step that failed. -/
def failureEvents (p : Pace) (before : Machine) : Machine.Failure → List Event
  | .fault f =>
    if Fault.Kind.decoding ∈ f.kind.lineage then
      debug p.verbose ("Decode failure at $" ++ Numeral.hex 4 before.pc.toNat ++ ": word $" ++
        Numeral.hex 4 before.fetch.toNat)
    else []
  | .unresolvedKey _ => []

/-- The frame after a step, if the run is shown live. -/
def frameEvents (p : Pace) (m : Machine) : List Event :=
  if p.live then [sayOut (frame m.screen)] else []

/-- The session with more events. -/
def note (s : Session) (events : List Event) : Session := { s with log := events.reverse ++ s.log }

/-- Pauses after a step, if the pace has pauses. -/
def rest (p : Pace) (s : Session) : Session :=
  match p.pause with
  | none => s
  | some seconds =>
    let s := { s.note [.pause seconds] with pauses := s.pauses + 1 }
    if p.interruptAt = some s.pauses then
      { s.note [sayErr "Interrupted."] with interrupted := true }
    else s

/-- Whether the session has come to an end of its own. -/
def isOver (s : Session) : Bool := s.run.isOver || s.interrupted

/-- The session after one more step. -/
def advance (p : Pace) (s : Session) : Session :=
  let before := s.run.machine
  let run := s.run.advance p.press
  let s := { s with run }
  match run.failure, run.trace with
  | some failure, _ => s.note (failureEvents p before failure)
  | none, e :: _ => rest p (s.note (stepEvents p before e ++ frameEvents p run.machine))
  | none, [] => s

/-- The session after at most `limit` more steps. -/
def proceed (p : Pace) : Nat → Session → Session
  | 0, s => s
  | limit + 1, s => if s.isOver then s else proceed p limit (s.advance p)

end Session

end Chip8.Tool
