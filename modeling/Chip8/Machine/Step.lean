/-
One step of the machine, and runs of many.

A step resolves the key first and fails with the machine untouched if there is
no such key. Then the timers tick; the word at the program counter is decoded,
the counter staying on a word that is no instruction; the counter moves on; and
the instruction is carried out.

A run stops at a failure, when the machine is halted, or at its limit.
-/
import Chip8.Instruction.Decoding
import Chip8.Machine.Execution

namespace Chip8

/-- An instruction that was carried out, and where it stood. -/
structure Executed where
  address : Word
  instruction : Instruction
deriving DecidableEq, Repr

namespace Machine

/-- Why a step failed. -/
inductive Failure
  | unresolvedKey (key : Key.Unresolved)
  | fault (f : Fault)
deriving DecidableEq, Repr

/-- The wording of a failure. -/
def Failure.message : Failure → String
  | .unresolvedKey key => key.message
  | .fault f => f.message

/-- The word at the program counter. -/
def fetch (m : Machine) : Word := m.memory.readWord m.pc.toNat

/-- Reads the clock and lets the timers tick. -/
def tick (m : Machine) : Machine :=
  { m with timers := m.timers.tick m.clock.peek, clock := m.clock.advance }

/-- Moves the program counter to the next instruction. -/
def advance (m : Machine) : Machine := { m with pc := m.pc + 2 }

/-- A fault in the instruction at the program counter. -/
def faultHere (m : Machine) (cause : Fault.Cause) : Failure :=
  .fault { cause, address := some m.pc.toNat }

/-- Decodes and carries out the instruction at the program counter. -/
def perform (m : Machine) (press : Option Key) : Except Failure Executed × Machine :=
  match Instruction.decode m.fetch with
  | .error cause => (.error (m.faultHere cause), m)
  | .ok i =>
    match m.advance.execute i m.pc press with
    | .error cause => (.error (m.faultHere cause), m.advance)
    | .ok m' => (.ok ⟨m.pc, i⟩, m')

/-- The key of an optional reference. -/
def resolvePress : Option Key.Reference → Except Key.Unresolved (Option Key)
  | none => .ok none
  | some ref => (Key.resolve ref).map some

/-- One step: what was carried out or why it failed, and the machine after it. -/
def step (m : Machine) (press : Option Key.Reference) : Except Failure Executed × Machine :=
  match resolvePress press with
  | .error key => (.error (.unresolvedKey key), m)
  | .ok key => m.tick.perform key

end Machine

/-! ## Runs -/

/-- A run on its way: the machine, the steps done so far, the newest first, and
the failure that ended it, if one has. -/
structure Run where
  machine : Machine
  trace : List Executed := []
  failure : Option Machine.Failure := none

namespace Run

/-- How many steps have been done. -/
def steps (r : Run) : Nat := r.trace.length

/-- Whether the run has come to an end of its own. -/
def isOver (r : Run) : Bool := r.failure.isSome || r.machine.halted

/-- The run after one more step, whether or not it is over. -/
def advance (r : Run) (press : Option Key.Reference) : Run :=
  match r.machine.step press with
  | (.ok done, m) => { machine := m, trace := done :: r.trace }
  | (.error failure, m) => { r with machine := m, failure := some failure }

/-- The run after at most `limit` more steps. -/
def proceed (press : Option Key.Reference) : Nat → Run → Run
  | 0, r => r
  | limit + 1, r => if r.isOver then r else proceed press limit (r.advance press)

/-- The number of steps done, or the failure that ended the run. -/
def outcome (r : Run) : Except Machine.Failure Nat :=
  match r.failure with
  | some failure => .error failure
  | none => .ok r.steps

end Run

/-- Steps until the machine is halted, a step fails, or the limit is reached;
a limit below zero counts as zero. -/
def Machine.run (m : Machine) (limit : Int) (press : Option Key.Reference) : Run :=
  Run.proceed press limit.toNat { machine := m }

end Chip8
