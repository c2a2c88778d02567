/-
Reading an instruction off a word. The high nibble names the family; families
`0`, `8`, `E` and `F` go on to their trailing digits.

A word that is no instruction is reported as an unknown operation in family
`8`, where only the last digit can be wrong, and as an unknown opcode elsewhere.
-/
import Chip8.Instruction
import Chip8.Fault

namespace Chip8.Instruction

/-- The instruction of family `8` with the given last digit. -/
def arithmetic? (x y : Register) : Nibble → Option Instruction
  | 0x0#4 => some (.load x y)
  | 0x1#4 => some (.or x y)
  | 0x2#4 => some (.and x y)
  | 0x3#4 => some (.xor x y)
  | 0x4#4 => some (.add x y)
  | 0x5#4 => some (.sub x y)
  | 0x6#4 => some (.shiftRight x y)
  | 0x7#4 => some (.subFrom x y)
  | 0xE#4 => some (.shiftLeft x y)
  | _ => none

/-- The instruction of family `F` with the given low byte. -/
def peripheral? (x : Register) : Byte → Option Instruction
  | 0x07#8 => some (.readDelay x)
  | 0x0A#8 => some (.awaitKey x)
  | 0x15#8 => some (.setDelay x)
  | 0x18#8 => some (.setSound x)
  | 0x1E#8 => some (.addIndex x)
  | 0x29#8 => some (.loadGlyph x)
  | 0x33#8 => some (.storeDecimal x)
  | 0x55#8 => some (.storeRegisters x)
  | 0x65#8 => some (.loadRegisters x)
  | _ => none

/-- The instruction a word stands for. -/
def ofWord? (w : Word) : Option Instruction :=
  let (family, x, y, n) := Word.nibbles w
  let byte : Byte := w.extractLsb' 0 8
  let target : Address := w.extractLsb' 0 12
  match family with
  | 0x0#4 => if w = 0x00E0 then some .clear else if w = 0x00EE then some .ret else none
  | 0x1#4 => some (.jump target)
  | 0x2#4 => some (.call target)
  | 0x3#4 => some (.skipEqByte x byte)
  | 0x4#4 => some (.skipNeByte x byte)
  | 0x5#4 => if n = 0 then some (.skipEq x y) else none
  | 0x6#4 => some (.loadByte x byte)
  | 0x7#4 => some (.addByte x byte)
  | 0x8#4 => arithmetic? x y n
  | 0x9#4 => if n = 0 then some (.skipNe x y) else none
  | 0xA#4 => some (.loadIndex target)
  | 0xB#4 => some (.jumpOffset target)
  | 0xC#4 => some (.random x byte)
  | 0xD#4 => some (.draw x y n)
  | 0xE#4 => if byte = 0x9E then some (.skipDown x) else if byte = 0xA1 then some (.skipUp x) else none
  | _ => peripheral? x byte

/-- What is wrong with a word that is no instruction. -/
def undecodable (w : Word) : Fault.Cause :=
  let (family, _, _, n) := Word.nibbles w
  if family = 0x8 then .unknownOperation family.toNat n.toNat w.toNat else .unknownOpcode w.toNat

/-- The instruction a word stands for, or what is wrong with the word. -/
def decode (w : Word) : Except Fault.Cause Instruction :=
  match ofWord? w with
  | some i => .ok i
  | none => .error (undecodable w)

/-- The instruction of the word an integer ends in. -/
def decodeInt (n : Int) : Except Fault.Cause Instruction := decode (BitVec.ofInt 16 n)

/-- The instruction of two bytes in memory order. -/
def decodeBytes (hi lo : Int) : Except Fault.Cause Instruction :=
  decode (Word.ofBytes (BitVec.ofInt 8 hi) (BitVec.ofInt 8 lo))

end Chip8.Instruction
