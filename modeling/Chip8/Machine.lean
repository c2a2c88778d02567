/-
The state of the machine, and how its user sets it.

The clock and the random bytes are supplies that the state carries along, so a
step is a function of the state and of the key that was pressed.
-/
import Chip8.CallStack
import Chip8.Dialect
import Chip8.Keypad
import Chip8.Memory
import Chip8.Register
import Chip8.Screen
import Chip8.Supply
import Chip8.Timers

namespace Chip8

/-- Everything a machine is made of. -/
structure Machine where
  memory : Memory
  registers : RegisterFile := {}
  index : Address := 0
  pc : Word := 0x200
  stack : CallStack := {}
  screen : Screen := .blank
  timers : Timers
  keypad : Keypad := .released
  dialect : Dialect := .standard
  halted : Bool := false
  clock : Supply Float
  random : Supply Byte

namespace Machine

/-- A machine with a program in it, unless the program is too long. The clock
is read once, to start the timers. -/
def load (program : List Byte) (dialect : Dialect) (clock : Supply Float) (random : Supply Byte) :
    Except Fault Machine :=
  (Memory.load program).map fun memory =>
    { memory, dialect, clock := clock.advance, random, timers := .start clock.peek }

/-! ## Settings from outside -/

/-- Sets the program counter to the low 16 bits of an integer. -/
def setPc (m : Machine) (value : Int) : Machine := { m with pc := BitVec.ofInt 16 value }

/-- Sets the index to the low 12 bits of an integer. -/
def setIndex (m : Machine) (value : Int) : Machine := { m with index := BitVec.ofInt 12 value }

/-- Marks the machine as halted or running. -/
def setHalted (m : Machine) (halted : Bool) : Machine := { m with halted }

/-- Sets the delay timer to the low byte of an integer. -/
def setDelay (m : Machine) (value : Int) : Machine := { m with timers := m.timers.setDelay value }

/-- Sets the sound timer to the low byte of an integer. -/
def setSound (m : Machine) (value : Int) : Machine := { m with timers := m.timers.setSound value }

/-- Sets a register. -/
def setRegister (m : Machine) (r : Register) (b : Byte) : Machine :=
  { m with registers := m.registers.write r b }

/-- Holds down or lets go of the key a reference names. -/
def setKey (m : Machine) (ref : Key.Reference) (down : Bool) : Except Key.Unresolved Machine :=
  (m.keypad.assign ref down).map fun keypad => { m with keypad }

/-- Writes bytes to memory from a place on. -/
def poke (m : Machine) (place : Int) (data : List Byte) : Machine :=
  { m with memory := m.memory.writeBytes place data }

/-- The value of a register. -/
def register (m : Machine) (r : Register) : Byte := m.registers.read r

end Machine

end Chip8
