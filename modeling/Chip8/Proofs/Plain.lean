/-
The machine in plain numbers: integers of any size and lists of any length,
with nothing in their types that keeps a number in its range or an access
inside its list. Only the arithmetic does: each write reduces its number by
hand. An access beyond a list, or a number that is no byte put into an array
of bytes, breaks the machine (`none`).

`WellFormed` is the list of ranges. That no operation leaves them or breaks the
machine, and that the machine of bit vectors is this one inside its ranges, is
proved in `Chip8.Proofs.Plain.Operation`.
-/
import Chip8.Machine.Step
import Mathlib.Data.Int.Bitwise

namespace Chip8

/-- The parts of a machine as plain numbers. -/
structure Plain where
  memory : List Int
  programSize : Nat
  registers : List Int
  index : Int
  pc : Int
  slots : List Int
  sp : Int
  pixels : List Bool
  keys : List Bool
  delay : Int
  sound : Int
  last : Float
  halted : Bool
  dialect : Dialect
  clock : Supply Float
  random : Supply Byte

namespace Plain

/-- Every number in its range, every list of its length. -/
structure WellFormed (p : Plain) : Prop where
  memory_length : p.memory.length = 4096
  memory_byte : ∀ b ∈ p.memory, 0 ≤ b ∧ b < 256
  registers_length : p.registers.length = 16
  registers_byte : ∀ b ∈ p.registers, 0 ≤ b ∧ b < 256
  index_address : 0 ≤ p.index ∧ p.index < 0x1000
  pc_word : 0 ≤ p.pc ∧ p.pc < 0x10000
  slots_length : p.slots.length = 16
  slots_word : ∀ w ∈ p.slots, 0 ≤ w ∧ w < 0x10000
  sp_le : 0 ≤ p.sp ∧ p.sp ≤ 16
  pixels_length : p.pixels.length = 2048
  keys_length : p.keys.length = 16
  delay_byte : 0 ≤ p.delay ∧ p.delay < 256
  sound_byte : 0 ≤ p.sound ∧ p.sound < 256

/-! ## Lists -/

/-- The element at a position, if it is one of the list. -/
def at? {α : Type} (xs : List α) (k : Int) : Option α := if 0 ≤ k then xs[k.toNat]? else none

/-- The list with one element replaced, if the position is one of the list. -/
def put? {α : Type} (xs : List α) (k : Int) (a : α) : Option (List α) :=
  if 0 ≤ k ∧ k < xs.length then some (xs.set k.toNat a) else none

/-- The same in an array of bytes, which takes no other numbers. -/
def putByte? (xs : List Int) (k b : Int) : Option (List Int) :=
  if 0 ≤ b ∧ b < 256 then put? xs k b else none

/-! ## Parts -/

def register (p : Plain) (r : Register) : Option Int := at? p.registers r.toNat

def setRegister (p : Plain) (r : Register) (value : Int) : Option Plain := do
  let registers ← putByte? p.registers r.toNat (value % 256)
  some { p with registers }

def setFlag (p : Plain) (b : Bool) : Option Plain := do
  let registers ← putByte? p.registers 15 (if b then 1 else 0)
  some { p with registers }

def setPc (p : Plain) (value : Int) : Plain := { p with pc := value % 0x10000 }

def modifyIndex (p : Plain) (f : Int → Int) : Plain := { p with index := f p.index % 0x1000 }

def setDelay (p : Plain) (value : Int) : Plain := { p with delay := value % 256 }

def setSound (p : Plain) (value : Int) : Plain := { p with sound := value % 256 }

def read (p : Plain) (place : Int) : Option Int := at? p.memory (place % 0x1000)

def write (p : Plain) (place value : Int) : Option Plain := do
  let memory ← putByte? p.memory (place % 0x1000) (value % 256)
  some { p with memory }

def readWord (p : Plain) (place : Int) : Option Int := do
  let hi ← p.read place
  let lo ← p.read (place + 1)
  some (256 * hi + lo)

def readBytes (p : Plain) (place : Int) (count : Nat) : Option (List Int) :=
  (List.range count).mapM fun k : Nat => p.read (place + k)

def writeBytes (p : Plain) (place : Int) : List Int → Option Plain
  | [] => some p
  | b :: rest => do
    let q ← p.write place b
    q.writeBytes (place + 1) rest

def push (p : Plain) (value : Int) : Option Plain := do
  let slots ← put? p.slots p.sp value
  some { p with slots, sp := p.sp + 1 }

/-! ## Drawing -/

def clear (p : Plain) : Plain := { p with pixels := List.replicate 2048 false }

def setPixel (p : Plain) (x y : Int) (on : Bool) : Option (Except Screen.OffScreen Plain) :=
  if 0 ≤ x ∧ x < 64 ∧ 0 ≤ y ∧ y < 32 then do
    let pixels ← put? p.pixels (y * 64 + x) on
    some (.ok { p with pixels })
  else some (.error ⟨x, y⟩)

/-- Turns over the pixels of a row under the set bits of a byte, column by
column up to the right edge, and tells whether a lit one went out. -/
def drawColumns (row column bits : Int) : List Nat → List Bool × Bool → Option (List Bool × Bool)
  | [], s => some s
  | c :: cs, (pixels, hit) =>
    if 64 ≤ column + c then some (pixels, hit)
    else if bits.testBit (7 - c) then do
      let lit ← at? pixels (row * 64 + (column + c))
      let pixels ← put? pixels (row * 64 + (column + c)) (!lit)
      drawColumns row column bits cs (pixels, hit || lit)
    else drawColumns row column bits cs (pixels, hit)

/-- Draws bytes below each other, row by row down to the bottom edge. -/
def drawRows (column : Int) : Int → List Int → List Bool × Bool → Option (List Bool × Bool)
  | _, [], s => some s
  | row, bits :: rest, s =>
    if 32 ≤ row then some s
    else do
      let s ← drawColumns row column bits (List.range 8) s
      drawRows column (row + 1) rest s

/-- Draws a sprite, its start wrapped around the screen. -/
def drawSprite (p : Plain) (x y : Int) (rows : List Int) : Option (Plain × Bool) := do
  let (pixels, hit) ← drawRows (x % 64) (y % 32) rows (p.pixels, false)
  some ({ p with pixels }, hit)

/-! ## Instructions -/

def skipIf (p : Plain) (condition : Bool) : Plain :=
  if condition then p.setPc (p.pc + 2) else p

/-- Writes a result, then the flag. -/
def yieldFlagged (p : Plain) (x : Register) (result : Int) (flag : Bool) : Option Plain := do
  let p ← p.setRegister x result
  p.setFlag flag

/-- Writes the result of a bitwise operation, then clears the flag if the
dialect has it so. -/
def yieldLogic (p : Plain) (x : Register) (result : Int) : Option Plain := do
  let p ← p.setRegister x result
  if p.dialect.logicClearsFlag then p.setFlag false else some p

def shiftSource (p : Plain) (x y : Register) : Option Int :=
  if p.dialect.shiftsInPlace then p.register x else p.register y

def passBlock (p : Plain) (x : Register) : Plain :=
  if p.dialect.blocksMoveIndex then p.modifyIndex fun i => i + (x.toNat + 1) else p

/-- Whether the key of a number is held; no number above fifteen has one. -/
def selected (p : Plain) (value : Int) : Option (Except Fault.Cause Bool) :=
  if 0 ≤ value ∧ value ≤ 0xF then (at? p.keys value).map .ok
  else some (.error (.noSuchKey value))

/-- Stores registers from the index on, one after another. -/
def storeBlock (p : Plain) : List Nat → Option Plain
  | [] => some p
  | k :: ks => do
    let v ← at? p.registers k
    let q ← p.write (p.index + k) v
    q.storeBlock ks

/-- Loads registers from the index on, one after another. -/
def loadBlock (p : Plain) : List Nat → Option Plain
  | [] => some p
  | k :: ks => do
    let b ← p.read (p.index + k)
    let registers ← putByte? p.registers k b
    { p with registers }.loadBlock ks

/-- The machine after an instruction that was fetched from `address`. -/
def execute (p : Plain) (i : Instruction) (address : Int) (press : Option Key) :
    Option (Except Fault.Cause Plain) :=
  match i with
  | .clear => some (.ok p.clear)
  | .ret =>
    if p.sp = 0 then some (.error .stackUnderflow)
    else do
      let target ← at? p.slots (p.sp - 1)
      some (.ok ({ p with sp := p.sp - 1 }.setPc target))
  | .jump a => some (.ok ({ p with halted := p.halted || (a.toNat : Int) == address }.setPc a.toNat))
  | .call a =>
    if p.sp = 16 then some (.error .stackOverflow)
    else do
      let p ← p.push p.pc
      some (.ok (p.setPc a.toNat))
  | .jumpOffset a => do
    let v ← p.register 0
    some (.ok (p.setPc (v + a.toNat)))
  | .skipEqByte x b => do
    let v ← p.register x
    some (.ok (p.skipIf (v == b.toNat)))
  | .skipNeByte x b => do
    let v ← p.register x
    some (.ok (p.skipIf (v != b.toNat)))
  | .skipEq x y => do
    let v ← p.register x
    let w ← p.register y
    some (.ok (p.skipIf (v == w)))
  | .skipNe x y => do
    let v ← p.register x
    let w ← p.register y
    some (.ok (p.skipIf (v != w)))
  | .skipDown x => do
    let v ← p.register x
    let held ← p.selected v
    some (held.map p.skipIf)
  | .skipUp x => do
    let v ← p.register x
    let held ← p.selected v
    some (held.map fun held => p.skipIf !held)
  | .loadByte x b => (p.setRegister x b.toNat).map .ok
  | .addByte x b => do
    let v ← p.register x
    (p.setRegister x (v + b.toNat)).map .ok
  | .random x b => do
    let q ← p.setRegister x (Int.land p.random.peek.toNat b.toNat)
    some (.ok { q with random := p.random.advance })
  | .load x y => do
    let w ← p.register y
    (p.setRegister x w).map .ok
  | .or x y => do
    let v ← p.register x
    let w ← p.register y
    (p.yieldLogic x (Int.lor v w)).map .ok
  | .and x y => do
    let v ← p.register x
    let w ← p.register y
    (p.yieldLogic x (Int.land v w)).map .ok
  | .xor x y => do
    let v ← p.register x
    let w ← p.register y
    (p.yieldLogic x (Int.xor v w)).map .ok
  | .add x y => do
    let v ← p.register x
    let w ← p.register y
    (p.yieldFlagged x (v + w) (255 < v + w)).map .ok
  | .sub x y => do
    let v ← p.register x
    let w ← p.register y
    (p.yieldFlagged x (v - w) (w ≤ v)).map .ok
  | .subFrom x y => do
    let v ← p.register x
    let w ← p.register y
    (p.yieldFlagged x (w - v) (v ≤ w)).map .ok
  | .shiftRight x y => do
    let source ← p.shiftSource x y
    (p.yieldFlagged x (source / 2) (source.testBit 0)).map .ok
  | .shiftLeft x y => do
    let source ← p.shiftSource x y
    (p.yieldFlagged x (source * 2) (source.testBit 7)).map .ok
  | .loadIndex a => some (.ok (p.modifyIndex fun _ => a.toNat))
  | .addIndex x => do
    let v ← p.register x
    some (.ok (p.modifyIndex fun i => i + v))
  | .loadGlyph x => do
    let v ← p.register x
    some (.ok (p.modifyIndex fun _ => v * 5))
  | .draw x y n => do
    let rows ← p.readBytes p.index n.toNat
    let v ← p.register x
    let w ← p.register y
    let (q, hit) ← p.drawSprite v w rows
    (q.setFlag hit).map .ok
  | .readDelay x => (p.setRegister x p.delay).map .ok
  | .setDelay x => do
    let v ← p.register x
    some (.ok (p.setDelay v))
  | .setSound x => do
    let v ← p.register x
    some (.ok (p.setSound v))
  | .awaitKey x =>
    match press with
    | some k => (p.setRegister x k.toNat).map .ok
    | none => some (.ok (p.setPc address))
  | .storeDecimal x => do
    let v ← p.register x
    let p ← p.write p.index (v / 100)
    let p ← p.write (p.index + 1) (v / 10 % 10)
    (p.write (p.index + 2) (v % 10)).map .ok
  | .storeRegisters x => do
    let p ← p.storeBlock (List.range (x.toNat + 1))
    some (.ok (p.passBlock x))
  | .loadRegisters x => do
    let p ← p.loadBlock (List.range (x.toNat + 1))
    some (.ok (p.passBlock x))

/-! ## Steps and runs -/

/-- Reads the clock; if a period has passed, both counters go down to zero. -/
def tick (p : Plain) : Plain :=
  let now := p.clock.peek
  let p := { p with clock := p.clock.advance }
  if Timers.elapsed p.last now then
    { p with
      delay := if 0 < p.delay then p.delay - 1 else p.delay
      sound := if 0 < p.sound then p.sound - 1 else p.sound
      last := now }
  else p

/-- One step: the address and the instruction carried out or why it failed, and
the machine after it. -/
def step (p : Plain) (press : Option Key.Reference) :
    Option (Except Machine.Failure (Int × Instruction) × Plain) :=
  match Machine.resolvePress press with
  | .error key => some (.error (.unresolvedKey key), p)
  | .ok key => do
    let p := p.tick
    let word ← p.readWord p.pc
    match Instruction.decodeInt word with
    | .error cause => some (.error (.fault { cause, address := some p.pc }), p)
    | .ok i => do
      let q := p.setPc (p.pc + 2)
      match ← q.execute i p.pc key with
      | .error cause => some (.error (.fault { cause, address := some p.pc }), q)
      | .ok q' => some (.ok (p.pc, i), q')

/-- Steps until the machine is halted, a step fails, or the limit is reached:
the failure, if there is one, and the machine after it. -/
def runSteps (press : Option Key.Reference) : Nat → Plain → Option (Option Machine.Failure × Plain)
  | 0, p => some (none, p)
  | limit + 1, p =>
    if p.halted then some (none, p)
    else do
      match ← p.step press with
      | (.error failure, q) => some (some failure, q)
      | (.ok _, q) => runSteps press limit q

/-- A font laid over zeros, and a program over both from a place on. -/
def image (size start : Nat) (font program : List Byte) : List Int :=
  let withFont := font.map (fun b => (b.toNat : Int)) ++
    (List.replicate size (0 : Int)).drop font.length
  withFont.take start ++ program.map (fun b => (b.toNat : Int)) ++
    withFont.drop (start + program.length)

/-- A machine with a program in it, unless the program is too long. -/
def load (program : List Byte) (dialect : Dialect) (clock : Supply Float) (random : Supply Byte) :
    Except Fault Plain :=
  if 0xE00 < program.length then
    .error { cause := .programTooLarge program.length 0xE00 }
  else
    .ok
      { memory := image 4096 0x200 Font.rows program, programSize := program.length
        registers := List.replicate 16 0, index := 0, pc := 0x200
        slots := List.replicate 16 0, sp := 0
        pixels := List.replicate 2048 false, keys := List.replicate 16 false
        delay := 0, sound := 0, last := clock.peek, halted := false
        dialect, clock := clock.advance, random }

end Plain

end Chip8
