/-
The instructions of the machine, one constructor for each of the 34 forms, and
the word that each is written as.

A form has a tag for logs and a pattern of four positions: digits stand for
themselves, and `x`, `y`, `n` and `k` for operand bits.
-/
import Chip8.Register

namespace Chip8

/-- An instruction with its operands. -/
inductive Instruction
  | clear
  | ret
  | jump (target : Address)
  | call (target : Address)
  | skipEqByte (x : Register) (byte : Byte)
  | skipNeByte (x : Register) (byte : Byte)
  | skipEq (x y : Register)
  | loadByte (x : Register) (byte : Byte)
  | addByte (x : Register) (byte : Byte)
  | load (x y : Register)
  | or (x y : Register)
  | and (x y : Register)
  | xor (x y : Register)
  | add (x y : Register)
  | sub (x y : Register)
  | shiftRight (x y : Register)
  | subFrom (x y : Register)
  | shiftLeft (x y : Register)
  | skipNe (x y : Register)
  | loadIndex (target : Address)
  | jumpOffset (target : Address)
  | random (x : Register) (byte : Byte)
  | draw (x y : Register) (height : Nibble)
  | skipDown (x : Register)
  | skipUp (x : Register)
  | readDelay (x : Register)
  | awaitKey (x : Register)
  | setDelay (x : Register)
  | setSound (x : Register)
  | addIndex (x : Register)
  | loadGlyph (x : Register)
  | storeDecimal (x : Register)
  | storeRegisters (x : Register)
  | loadRegisters (x : Register)
deriving DecidableEq, Repr

namespace Instruction

/-! ## Forms -/

/-- The forms, in the order of the instruction table. -/
inductive Form
  | clear | ret | jump | call | skipEqByte | skipNeByte | skipEq | loadByte | addByte
  | load | or | and | xor | add | sub | shiftRight | subFrom | shiftLeft
  | skipNe | loadIndex | jumpOffset | random | draw | skipDown | skipUp
  | readDelay | awaitKey | setDelay | setSound | addIndex | loadGlyph | storeDecimal
  | storeRegisters | loadRegisters
deriving DecidableEq, Repr

namespace Form

/-- Every form once, in the order of the instruction table. -/
def all : List Form :=
  [clear, ret, jump, call, skipEqByte, skipNeByte, skipEq, loadByte, addByte,
    load, or, and, xor, add, sub, shiftRight, subFrom, shiftLeft,
    skipNe, loadIndex, jumpOffset, random, draw, skipDown, skipUp,
    readDelay, awaitKey, setDelay, setSound, addIndex, loadGlyph, storeDecimal,
    storeRegisters, loadRegisters]

/-- The short tag of a form in traces. -/
def tag : Form → String
  | clear => "CLS"
  | ret => "RET"
  | jump => "JP"
  | call => "CALL"
  | skipEqByte => "SEQ"
  | skipNeByte => "SNELIT"
  | skipEq => "SE"
  | loadByte => "LDL"
  | addByte => "ADDL"
  | load => "LD"
  | or => "OR"
  | and => "AND"
  | xor => "XOR"
  | add => "ADDC"
  | sub => "SUBC"
  | shiftRight => "SHRC"
  | subFrom => "SUBN"
  | shiftLeft => "SHLC"
  | skipNe => "SNE"
  | loadIndex => "LDI"
  | jumpOffset => "JPL"
  | random => "RND"
  | draw => "DRW"
  | skipDown => "SKP"
  | skipUp => "SKNP"
  | readDelay => "MOVDT"
  | awaitKey => "LDKB"
  | setDelay => "LDDT"
  | setSound => "LDST"
  | addIndex => "ADDI"
  | loadGlyph => "LDSPR"
  | storeDecimal => "LDBCD"
  | storeRegisters => "PUSHREG"
  | loadRegisters => "POPREG"

/-- The four positions of a form's words. -/
def pattern : Form → String
  | clear => "00E0"
  | ret => "00EE"
  | jump => "1nnn"
  | call => "2nnn"
  | skipEqByte => "3xkk"
  | skipNeByte => "4xkk"
  | skipEq => "5xy0"
  | loadByte => "6xkk"
  | addByte => "7xkk"
  | load => "8xy0"
  | or => "8xy1"
  | and => "8xy2"
  | xor => "8xy3"
  | add => "8xy4"
  | sub => "8xy5"
  | shiftRight => "8xy6"
  | subFrom => "8xy7"
  | shiftLeft => "8xyE"
  | skipNe => "9xy0"
  | loadIndex => "Annn"
  | jumpOffset => "Bnnn"
  | random => "Cxkk"
  | draw => "Dxyn"
  | skipDown => "Ex9E"
  | skipUp => "ExA1"
  | readDelay => "Fx07"
  | awaitKey => "Fx0A"
  | setDelay => "Fx15"
  | setSound => "Fx18"
  | addIndex => "Fx1E"
  | loadGlyph => "Fx29"
  | storeDecimal => "Fx33"
  | storeRegisters => "Fx55"
  | loadRegisters => "Fx65"

end Form

/-- The form of an instruction. -/
def form : Instruction → Form
  | clear => .clear
  | ret => .ret
  | jump _ => .jump
  | call _ => .call
  | skipEqByte .. => .skipEqByte
  | skipNeByte .. => .skipNeByte
  | skipEq .. => .skipEq
  | loadByte .. => .loadByte
  | addByte .. => .addByte
  | load .. => .load
  | or .. => .or
  | and .. => .and
  | xor .. => .xor
  | add .. => .add
  | sub .. => .sub
  | shiftRight .. => .shiftRight
  | subFrom .. => .subFrom
  | shiftLeft .. => .shiftLeft
  | skipNe .. => .skipNe
  | loadIndex _ => .loadIndex
  | jumpOffset _ => .jumpOffset
  | random .. => .random
  | draw .. => .draw
  | skipDown _ => .skipDown
  | skipUp _ => .skipUp
  | readDelay _ => .readDelay
  | awaitKey _ => .awaitKey
  | setDelay _ => .setDelay
  | setSound _ => .setSound
  | addIndex _ => .addIndex
  | loadGlyph _ => .loadGlyph
  | storeDecimal _ => .storeDecimal
  | storeRegisters _ => .storeRegisters
  | loadRegisters _ => .loadRegisters

/-! ## Operands -/

/-- What an instruction may carry. -/
inductive Operand
  | target (a : Address)
  | x (r : Register)
  | y (r : Register)
  | byte (b : Byte)
  | height (n : Nibble)
deriving DecidableEq, Repr

/-- The value of an operand as a number. -/
def Operand.value : Operand → Nat
  | .target a => a.toNat
  | .x r => r.toNat
  | .y r => r.toNat
  | .byte b => b.toNat
  | .height n => n.toNat

/-- The operands of an instruction, in the order in which its word holds them. -/
def operands : Instruction → List Operand
  | clear | ret => []
  | jump a | call a | loadIndex a | jumpOffset a => [.target a]
  | skipEqByte x b | skipNeByte x b | loadByte x b | addByte x b | random x b => [.x x, .byte b]
  | skipEq x y | load x y | or x y | and x y | xor x y | add x y | sub x y | shiftRight x y
  | subFrom x y | shiftLeft x y | skipNe x y => [.x x, .y y]
  | draw x y n => [.x x, .y y, .height n]
  | skipDown x | skipUp x | readDelay x | awaitKey x | setDelay x | setSound x | addIndex x
  | loadGlyph x | storeDecimal x | storeRegisters x | loadRegisters x => [.x x]

/-! ## Words -/

/-- The word an instruction is written as. -/
def encode : Instruction → Word
  | clear => 0x00E0
  | ret => 0x00EE
  | jump a => 0x1#4 ++ a
  | call a => 0x2#4 ++ a
  | skipEqByte x b => 0x3#4 ++ x ++ b
  | skipNeByte x b => 0x4#4 ++ x ++ b
  | skipEq x y => 0x5#4 ++ x ++ y ++ 0x0#4
  | loadByte x b => 0x6#4 ++ x ++ b
  | addByte x b => 0x7#4 ++ x ++ b
  | load x y => 0x8#4 ++ x ++ y ++ 0x0#4
  | or x y => 0x8#4 ++ x ++ y ++ 0x1#4
  | and x y => 0x8#4 ++ x ++ y ++ 0x2#4
  | xor x y => 0x8#4 ++ x ++ y ++ 0x3#4
  | add x y => 0x8#4 ++ x ++ y ++ 0x4#4
  | sub x y => 0x8#4 ++ x ++ y ++ 0x5#4
  | shiftRight x y => 0x8#4 ++ x ++ y ++ 0x6#4
  | subFrom x y => 0x8#4 ++ x ++ y ++ 0x7#4
  | shiftLeft x y => 0x8#4 ++ x ++ y ++ 0xE#4
  | skipNe x y => 0x9#4 ++ x ++ y ++ 0x0#4
  | loadIndex a => 0xA#4 ++ a
  | jumpOffset a => 0xB#4 ++ a
  | random x b => 0xC#4 ++ x ++ b
  | draw x y n => 0xD#4 ++ x ++ y ++ n
  | skipDown x => 0xE#4 ++ x ++ 0x9E#8
  | skipUp x => 0xE#4 ++ x ++ 0xA1#8
  | readDelay x => 0xF#4 ++ x ++ 0x07#8
  | awaitKey x => 0xF#4 ++ x ++ 0x0A#8
  | setDelay x => 0xF#4 ++ x ++ 0x15#8
  | setSound x => 0xF#4 ++ x ++ 0x18#8
  | addIndex x => 0xF#4 ++ x ++ 0x1E#8
  | loadGlyph x => 0xF#4 ++ x ++ 0x29#8
  | storeDecimal x => 0xF#4 ++ x ++ 0x33#8
  | storeRegisters x => 0xF#4 ++ x ++ 0x55#8
  | loadRegisters x => 0xF#4 ++ x ++ 0x65#8

end Instruction

end Chip8
