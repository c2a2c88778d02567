/-
The sixteen keys of the hexadecimal keypad, their names and labels, where they
lie, and the ways in which a key can be referred to.

A reference is a number, a name `K0` to `KF`, or a label: one digit, maybe
behind `0x`. Case and blanks around it do not matter, and a decimal digit of
any script will do.
-/
import Chip8.Quantity
import Chip8.Text.Blank
import Chip8.Text.DecimalDigit
import Chip8.Text.LetterCase

namespace Chip8

/-- A key, by the digit on it. -/
abbrev Key := BitVec 4

namespace Key

/-- The digit on a key. -/
def label (k : Key) : String := Numeral.hex 1 k.toNat

/-- The name of a key, `K0` to `KF`. -/
def name (k : Key) : String := "K" ++ k.label

/-- All keys, in order. -/
def all : List Key := (List.range 16).map (BitVec.ofNat 4)

/-- The key of a value, if there is one. -/
def ofValue? (value : Int) : Option Key :=
  if 0 ≤ value ∧ value ≤ 0xF then some (BitVec.ofInt 4 value) else none

/-! ## Layout -/

/-- The rows of the keypad, top to bottom. -/
def layout : List (List Key) :=
  [[0x1, 0x2, 0x3, 0xC], [0x4, 0x5, 0x6, 0xD], [0x7, 0x8, 0x9, 0xE], [0xA, 0x0, 0xB, 0xF]]

/-- The keys of a host keyboard in the same places. -/
def hostRows : List (List String) :=
  [["1", "2", "3", "4"], ["Q", "W", "E", "R"], ["A", "S", "D", "F"], ["Z", "X", "C", "V"]]

/-- Each host key with the key it stands for. -/
def hostKeys : List (String × Key) := hostRows.flatten.zip layout.flatten

/-! ## References -/

/-- A way to refer to a key. -/
inductive Reference
  | number (value : Int)
  | text (text : String)
deriving DecidableEq, Repr

/-- A reference that names no key. -/
inductive Unresolved
  | outOfRange (value : Int)
  | unknown (text : String)
deriving DecidableEq, Repr

/-- The wording of a reference that names no key. -/
def Unresolved.message : Unresolved → String
  | .outOfRange value => "Key value must be 0-15, got " ++ Numeral.decimal value
  | .unknown text => "Unknown key '" ++ text ++ "'"

/-- The key whose name the characters are. -/
def ofName? (cs : List Char) : Option Key := all.find? fun k => k.name.toList = cs

/-- The characters behind one leading `0X`. -/
def dropMark : List Char → List Char
  | '0' :: 'X' :: rest => rest
  | cs => cs

/-- The key whose digit the characters are. -/
def ofDigit? : List Char → Option Key
  | [c] => (Text.DecimalDigit.hexValue? c).map (BitVec.ofNat 4)
  | _ => none

/-- The key that a text in upper case without blanks around it refers to. -/
def ofUpper? (cs : List Char) : Option Key := (ofName? cs).or (ofDigit? (dropMark cs))

/-- The key a reference names. -/
def resolve : Reference → Except Unresolved Key
  | .number value =>
    match ofValue? value with
    | some k => .ok k
    | none => .error (.outOfRange value)
  | .text text =>
    match ofUpper? (Text.strip (Text.upper text.toList)) with
    | some k => .ok k
    | none => .error (.unknown text)

end Key

end Chip8
