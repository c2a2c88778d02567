/-
The fixed-width quantities of the machine, and how wider or negative integers
become one: an integer is read modulo `2 ^ width`, in two's complement.

Adjusting a quantity masks the result, and nibbles are cut out of and put
together to words and addresses.
-/
import Chip8.Numeral

namespace Chip8

/-- A memory cell or a register's value. -/
abbrev Byte := BitVec 8

/-- An instruction word, or the program counter. -/
abbrev Word := BitVec 16

/-- A place in memory. -/
abbrev Address := BitVec 12

/-- Four bits: a sprite height or a selector. -/
abbrev Nibble := BitVec 4

namespace Quantity

/-- The notation of a quantity, `U12(0x02A)`: its width, then its value in as
many hexadecimal digits as the width has nibbles. -/
def notate {width : Nat} (q : BitVec width) : String :=
  "U" ++ toString width ++ "(0x" ++ Numeral.hex ((width + 3) / 4) q.toNat ++ ")"

/-! ## Bits of integers -/

/-- A bitwise operation on integers in two's complement of unlimited length:
both are cut at a width that keeps their signs. -/
def bitwise (op : ∀ {width : Nat}, BitVec width → BitVec width → BitVec width) (a b : Int) : Int :=
  let width := max a.natAbs.log2 b.natAbs.log2 + 2
  (op (BitVec.ofInt width a) (BitVec.ofInt width b)).toInt

/-! ## Adjusting -/

/-- One arithmetic step on an integer. -/
inductive Adjustment
  | add (n : Int)
  | subtract (n : Int)
  | multiply (n : Int)
  | exclusiveOr (n : Int)
  | inclusiveOr (n : Int)
  | conjoin (n : Int)
  | shiftLeft (count : Nat)
  | shiftRight (count : Nat)
deriving DecidableEq, Repr

/-- What the step makes of an unbounded integer. -/
def Adjustment.apply : Adjustment → Int → Int
  | .add n, v => v + n
  | .subtract n, v => v - n
  | .multiply n, v => v * n
  | .exclusiveOr n, v => bitwise (fun a b => a ^^^ b) v n
  | .inclusiveOr n, v => bitwise (fun a b => a ||| b) v n
  | .conjoin n, v => bitwise (fun a b => a &&& b) v n
  | .shiftLeft count, v => v <<< count
  | .shiftRight count, v => v >>> count

/-- Replaces a quantity by a function of its value, masked to its width. -/
def modify {width : Nat} (f : Int → Int) (q : BitVec width) : BitVec width :=
  BitVec.ofInt width (f q.toNat)

/-- Takes one step and masks the result. The bits that a shift to the left
moves out of the width are never made. -/
def adjust {width : Nat} (q : BitVec width) : Adjustment → BitVec width
  | .shiftLeft count => if width ≤ count then 0 else q <<< count
  | a => modify a.apply q

theorem modify_shiftLeft {width : Nat} (q : BitVec width) (count : Nat) :
    modify (Adjustment.shiftLeft count).apply q = q <<< count := by
  apply BitVec.eq_of_toNat_eq
  simp [modify, Adjustment.apply, Int.shiftLeft_eq, Nat.shiftLeft_eq]
  norm_cast

theorem adjust_eq_modify {width : Nat} (q : BitVec width) (a : Adjustment) :
    adjust q a = modify a.apply q := by
  cases a with
  | shiftLeft count =>
    rw [modify_shiftLeft, adjust]
    split
    · rw [BitVec.shiftLeft_eq_zero (by assumption)]
      rfl
    · rfl
  | _ => rfl

/-! ## Shifts that are refused -/

/-- Why a shift is not carried out. -/
inductive ShiftError
  | negativeCount
  | tooManyDigits
  | noMemory
deriving DecidableEq, Repr

/-- The wording of a shift that is not carried out. -/
def ShiftError.message : ShiftError → String
  | .negativeCount => "negative shift count"
  | .tooManyDigits => "too many digits in integer"
  | .noMemory => ""

/-- The bits in a digit of an unbounded integer. -/
def digitBits : Nat := 30

/-- The most digits that an unbounded integer may have. -/
def digitLimit : Nat := 0x1FFFFFFFFFFFFFF9

/-- The most bits that are held in memory. -/
def bitLimit : Nat := 0x4000000000

/-- A count that is not negative. -/
def shiftCount (count : Int) : Except ShiftError Nat :=
  if count < 0 then .error .negativeCount else .ok count.toNat

/-- The digits of a positive integer that is shifted to the left. -/
def shiftedDigits (value count : Nat) : Nat :=
  value.log2 / digitBits + 1 + (count + digitBits - 1) / digitBits

/-- Why a step from a value is refused, if it is: a shift to the left makes room
for its whole result. Nothing makes no room, however far it is shifted. -/
def Adjustment.refusal? (a : Adjustment) (value : Nat) : Option ShiftError :=
  match a with
  | .shiftLeft count =>
    if value = 0 then none
    else if digitLimit < shiftedDigits value count then some .tooManyDigits
    else if bitLimit < count then some .noMemory
    else none
  | _ => none

/-- Takes one step unless it is refused. -/
def tryAdjust {width : Nat} (q : BitVec width) (a : Adjustment) :
    Except ShiftError (BitVec width) :=
  match a.refusal? q.toNat with
  | some e => .error e
  | none => .ok (adjust q a)

/-! ## Nibbles -/

/-- Why a nibble cannot be read. -/
inductive NibbleError
  | unsupportedWidth (width : Int)
  | indexOutOfRange (index width : Int)
deriving DecidableEq, Repr

/-- The wording of a failed nibble access. -/
def NibbleError.message : NibbleError → String
  | .unsupportedWidth width =>
    "nibble_at supports 8 or 16 bit values, got width " ++ Numeral.decimal width
  | .indexOutOfRange index width =>
    "nibble index " ++ Numeral.decimal index ++ " out of range for a " ++ Numeral.decimal width ++
      "-bit value"

/-- The nibble at a position of an 8- or 16-bit value, position 0 being the
least significant. -/
def nibbleAt (value index width : Int) : Except NibbleError Nibble :=
  if width ≠ 8 ∧ width ≠ 16 then .error (.unsupportedWidth width)
  else if index < 0 ∨ width / 4 ≤ index then .error (.indexOutOfRange index width)
  else .ok (BitVec.ofInt 4 (value >>> (4 * index.toNat)))

end Quantity

/-- The four nibbles of a word, most significant first. -/
def Word.nibbles (w : Word) : Nibble × Nibble × Nibble × Nibble :=
  (w.extractLsb' 12 4, w.extractLsb' 8 4, w.extractLsb' 4 4, w.extractLsb' 0 4)

/-- The address whose three digits are the low nibbles of the given integers. -/
def Address.ofNibbles (hi mid lo : Int) : Address :=
  BitVec.ofInt 4 hi ++ BitVec.ofInt 4 mid ++ BitVec.ofInt 4 lo

/-- The word of two bytes in memory order, the first being the high one. -/
def Word.ofBytes (hi lo : Byte) : Word := hi ++ lo

end Chip8
