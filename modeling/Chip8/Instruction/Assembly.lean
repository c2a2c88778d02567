/-
Instructions in assembly: a mnemonic, then the operands with commas between
them. Addresses and bytes are hexadecimal behind a dollar sign; the height of
a sprite is decimal.
-/
import Chip8.Instruction

namespace Chip8

/-- An address as an operand, three digits. -/
def Address.assembly (a : Address) : String := "$" ++ Numeral.hex 3 a.toNat

/-- A byte as an operand, two digits. -/
def Byte.assembly (b : Byte) : String := "$" ++ Numeral.hex 2 b.toNat

namespace Instruction

/-- The first word of an instruction's assembly. -/
def mnemonic : Instruction → String
  | clear => "CLS"
  | ret => "RET"
  | jump _ | jumpOffset _ => "JP"
  | call _ => "CALL"
  | skipEqByte .. | skipEq .. => "SE"
  | skipNeByte .. | skipNe .. => "SNE"
  | loadByte .. | load .. | loadIndex _ | readDelay _ | awaitKey _ | setDelay _ | setSound _
  | loadGlyph _ | storeDecimal _ | storeRegisters _ | loadRegisters _ => "LD"
  | addByte .. | add .. | addIndex _ => "ADD"
  | or .. => "OR"
  | and .. => "AND"
  | xor .. => "XOR"
  | sub .. => "SUB"
  | shiftRight .. => "SHR"
  | subFrom .. => "SUBN"
  | shiftLeft .. => "SHL"
  | random .. => "RND"
  | draw .. => "DRW"
  | skipDown _ => "SKP"
  | skipUp _ => "SKNP"

/-- The operands of an instruction as its assembly shows them. -/
def operandTexts : Instruction → List String
  | clear | ret => []
  | jump a | call a => [Address.assembly a]
  | skipEqByte x b | skipNeByte x b | loadByte x b | addByte x b | random x b =>
    [x.name, Byte.assembly b]
  | skipEq x y | load x y | or x y | and x y | xor x y | add x y | sub x y | shiftRight x y
  | subFrom x y | shiftLeft x y | skipNe x y => [x.name, y.name]
  | loadIndex a => ["I", Address.assembly a]
  | jumpOffset a => ["V0", Address.assembly a]
  | draw x y n => [x.name, y.name, Numeral.decimal n.toNat]
  | skipDown x | skipUp x => [x.name]
  | readDelay x => [x.name, "DT"]
  | awaitKey x => [x.name, "K"]
  | setDelay x => ["DT", x.name]
  | setSound x => ["ST", x.name]
  | addIndex x => ["I", x.name]
  | loadGlyph x => ["F", x.name]
  | storeDecimal x => ["B", x.name]
  | storeRegisters x => ["[I]", x.name]
  | loadRegisters x => [x.name, "[I]"]

/-- The operands in one text. -/
def operandText (i : Instruction) : String := String.intercalate ", " i.operandTexts

/-- A mnemonic and the operands behind it, if there are any. -/
def join (mnemonic operands : String) : String :=
  if operands = "" then mnemonic else mnemonic ++ " " ++ operands

/-- An instruction in assembly. -/
def assembly (i : Instruction) : String := join i.mnemonic i.operandText

/-- An instruction with its tag, as traces show it. -/
def tagged (i : Instruction) : String := i.form.tag ++ ": " ++ i.assembly

end Instruction

end Chip8
