/-
What each instruction does to the machine. The program counter has already
moved on to the next instruction, and the address that the instruction was
fetched from is given beside it.

Arithmetic writes its result first and the flag after it, so in `VF` the flag
wins. Nothing is changed where an instruction fails.
-/
import Chip8.Instruction
import Chip8.Machine

namespace Chip8.Machine

/-- Skips the next instruction under a condition. -/
def skipIf (m : Machine) (condition : Bool) : Machine :=
  if condition then { m with pc := m.pc + 2 } else m

/-- Writes a result to a register. -/
def yield (m : Machine) (x : Register) (result : Byte) : Machine :=
  { m with registers := m.registers.write x result }

/-- Writes a result to a register, then the flag. -/
def yieldFlagged (m : Machine) (x : Register) (result : Byte) (flag : Bool) : Machine :=
  { m with registers := (m.registers.write x result).writeFlag flag }

/-- Writes the result of a bitwise operation, then clears the flag if the
dialect has it so. -/
def yieldLogic (m : Machine) (x : Register) (result : Byte) : Machine :=
  if m.dialect.logicClearsFlag then m.yieldFlagged x result false else m.yield x result

/-- What a shift works on. -/
def shiftSource (m : Machine) (x y : Register) : Byte :=
  if m.dialect.shiftsInPlace then m.register x else m.register y

/-- Moves the index behind a block of registers if the dialect has it so. -/
def passBlock (m : Machine) (x : Register) : Machine :=
  if m.dialect.blocksMoveIndex then
    { m with index := m.index + BitVec.ofNat 12 (x.toNat + 1) }
  else m

/-- Whether the key that a register selects is held, if there is such a key. -/
def selected (m : Machine) (x : Register) : Except Fault.Cause Bool :=
  let value := m.register x
  match Key.ofValue? value.toNat with
  | some k => .ok (m.keypad.isHeld k)
  | none => .error (.noSuchKey value.toNat)

/-- Draws the sprite at the index and sets the flag if it puts out a pixel. -/
def drawSprite (m : Machine) (x y : Register) (height : Nibble) : Machine :=
  let column := (m.register x).toNat
  let row := (m.register y).toNat
  let sprite := m.memory.readBytes m.index.toNat height.toNat
  { m with
    screen := m.screen.draw column row sprite
    registers := m.registers.writeFlag (m.screen.collides column row sprite) }

/-- The decimal digits of a byte: hundreds, tens, ones. -/
def decimalDigits (b : Byte) : List Byte := [b / 100, b / 10 % 10, b % 10]

/-- The machine after an instruction that was fetched from `address`, with the
key that was pressed, if any. -/
def execute (m : Machine) (i : Instruction) (address : Word) (press : Option Key) :
    Except Fault.Cause Machine :=
  match i with
  | .clear => .ok { m with screen := .blank }
  | .ret =>
    match m.stack.pop? with
    | some (target, stack) => .ok { m with pc := target, stack }
    | none => .error .stackUnderflow
  | .jump a =>
    let target := a.setWidth 16
    .ok { m with pc := target, halted := m.halted || target == address }
  | .call a =>
    match m.stack.push? m.pc with
    | some stack => .ok { m with pc := a.setWidth 16, stack }
    | none => .error .stackOverflow
  | .jumpOffset a => .ok { m with pc := (m.register 0).setWidth 16 + a.setWidth 16 }
  | .skipEqByte x b => .ok (m.skipIf (m.register x == b))
  | .skipNeByte x b => .ok (m.skipIf (m.register x != b))
  | .skipEq x y => .ok (m.skipIf (m.register x == m.register y))
  | .skipNe x y => .ok (m.skipIf (m.register x != m.register y))
  | .skipDown x => (m.selected x).map m.skipIf
  | .skipUp x => (m.selected x).map fun held => m.skipIf !held
  | .loadByte x b => .ok (m.yield x b)
  | .addByte x b => .ok (m.yield x (m.register x + b))
  | .random x b => .ok { m.yield x (m.random.peek &&& b) with random := m.random.advance }
  | .load x y => .ok (m.yield x (m.register y))
  | .or x y => .ok (m.yieldLogic x (m.register x ||| m.register y))
  | .and x y => .ok (m.yieldLogic x (m.register x &&& m.register y))
  | .xor x y => .ok (m.yieldLogic x (m.register x ^^^ m.register y))
  | .add x y =>
    let a := m.register x
    let b := m.register y
    .ok (m.yieldFlagged x (a + b) (256 ≤ a.toNat + b.toNat))
  | .sub x y =>
    let a := m.register x
    let b := m.register y
    .ok (m.yieldFlagged x (a - b) (b ≤ a))
  | .subFrom x y =>
    let a := m.register x
    let b := m.register y
    .ok (m.yieldFlagged x (b - a) (a ≤ b))
  | .shiftRight x y =>
    let source := m.shiftSource x y
    .ok (m.yieldFlagged x (source >>> 1) (source.getLsbD 0))
  | .shiftLeft x y =>
    let source := m.shiftSource x y
    .ok (m.yieldFlagged x (source <<< 1) source.msb)
  | .loadIndex a => .ok { m with index := a }
  | .addIndex x => .ok { m with index := m.index + (m.register x).setWidth 12 }
  | .loadGlyph x => .ok { m with index := (m.register x).setWidth 12 * BitVec.ofNat 12 Font.glyphHeight }
  | .draw x y n => .ok (m.drawSprite x y n)
  | .readDelay x => .ok (m.yield x m.timers.delay)
  | .setDelay x => .ok { m with timers := { m.timers with delay := m.register x } }
  | .setSound x => .ok { m with timers := { m.timers with sound := m.register x } }
  | .awaitKey x =>
    match press with
    | some k => .ok (m.yield x (k.setWidth 8))
    | none => .ok { m with pc := address }
  | .storeDecimal x => .ok (m.poke m.index.toNat (decimalDigits (m.register x)))
  | .storeRegisters x => .ok ((m.poke m.index.toNat (m.registers.block x)).passBlock x)
  | .loadRegisters x =>
    let values := m.memory.readBytes m.index.toNat (x.toNat + 1)
    .ok ({ m with registers := m.registers.loadBlock values }.passBlock x)

end Chip8.Machine
