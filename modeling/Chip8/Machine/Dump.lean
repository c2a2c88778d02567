/-
The state of the machine as text: registers, keypad, timers, program counter
and stack, one section each.
-/
import Chip8.Instruction.Assembly
import Chip8.Machine

namespace Chip8.Machine

/-- A byte behind `0x`. -/
def byteText (b : Byte) : String := "0x" ++ Numeral.hex 2 b.toNat

/-- A word behind `0x`. -/
def wordText (w : Word) : String := "0x" ++ Numeral.hex 4 w.toNat

/-- Four registers from the given one on, in one line. -/
def registerLine (m : Machine) (first : Nat) : String :=
  String.intercalate "  " ((List.range' first 4).map fun k =>
    let r : Register := BitVec.ofNat 4 k
    r.name ++ " = " ++ byteText (m.register r))

/-- A slot of the stack, marked if it is the next to be filled. -/
def slotLine (m : Machine) (slot : Nat) : String :=
  Numeral.padLeft 2 (toString slot) ++ ": " ++ wordText (m.stack.shown slot) ++
    if slot = m.stack.depth then " <- SP" else ""

/-- The program counter, with the instruction that was carried out last if one
is given. -/
def counterLine (m : Machine) (last : Option Instruction) : String :=
  wordText m.pc ++
    match last with
    | some i => " -> " ++ i.assembly
    | none => ""

/-- The lines of a dump. -/
def dumpLines (m : Machine) (last : Option Instruction) : List String :=
  "REGS:" :: [0, 4, 8, 12].map m.registerLine ++
    [" I = " ++ wordText (m.index.setWidth 16), "",
      "KEYPAD:", m.keypad.grid, "",
      "TIMERS:", "DT = " ++ byteText m.timers.delay, "ST = " ++ byteText m.timers.sound, "",
      "PC:", m.counterLine last, "",
      "STACK (SP = " ++ toString m.stack.depth ++ "):"] ++
    (List.range 16).reverse.map m.slotLine

/-- The state of the machine, with the instruction that was carried out last
if one is given. -/
def dump (m : Machine) (last : Option Instruction) : String :=
  String.intercalate "\n" (m.dumpLines last)

/-- One line on the state of the machine. -/
def summary (m : Machine) : String :=
  "Machine(pc=$" ++ Numeral.hex 4 m.pc.toNat ++ ", i=$" ++ Numeral.hex 3 m.index.toNat ++
    ", sp=" ++ toString m.stack.depth ++ ", halted=" ++ (if m.halted then "True" else "False") ++ ")"

end Chip8.Machine
