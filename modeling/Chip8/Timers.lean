/-
The delay and sound timers. Both count down to zero at sixty steps a second of
the clock: a tick counts once if a whole period has passed since the reading of
the last tick that counted, however long that is ago.
-/
import Chip8.Quantity

namespace Chip8

/-- The two counters, and the clock reading of the last tick that counted. -/
structure Timers where
  delay : Byte := 0
  sound : Byte := 0
  last : Float

namespace Timers

/-- Counts a second. -/
def rate : Nat := 60

/-- Seconds between two counts. -/
def period : Float := 1.0 / 60.0

/-- Timers at zero, started at a clock reading. -/
def start (now : Float) : Timers := { last := now }

/-- Whether a period has passed between two readings. -/
def elapsed (last now : Float) : Bool := !(now - last < period)

/-- A counter, one lower unless it is at zero. -/
def countDown (b : Byte) : Byte := if b = 0 then 0 else b - 1

/-- Whether a tick at a reading counts. -/
def due (t : Timers) (now : Float) : Bool := elapsed t.last now

/-- The timers after a tick at a clock reading. -/
def tick (t : Timers) (now : Float) : Timers :=
  if t.due now then ⟨countDown t.delay, countDown t.sound, now⟩ else t

/-- Sets the delay counter to the low byte of an integer. -/
def setDelay (t : Timers) (value : Int) : Timers := { t with delay := BitVec.ofInt 8 value }

/-- Sets the sound counter to the low byte of an integer. -/
def setSound (t : Timers) (value : Int) : Timers := { t with sound := BitVec.ofInt 8 value }

/-- Whether the buzzer sounds. -/
def sounding (t : Timers) : Bool := t.sound ≠ 0

/-- One line on the state of the timers. -/
def summary (t : Timers) : String :=
  "Timers(delay=$" ++ Numeral.hex 2 t.delay.toNat ++ ", sound=$" ++ Numeral.hex 2 t.sound.toNat ++ ")"

end Timers

end Chip8
