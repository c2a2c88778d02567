/-
Comparing quantities with each other and with other values. Quantities of
different widths are never equal; a quantity equals a plain number of its
value, and never a text or nothing.

A quantity on the left is compared with whatever stands for a number, a text
too. Plain numbers are compared with each other, and so are texts; no other two
have an order, not even a number with a quantity on its right.

A set tells its members apart by their hash keys before it compares them, and a
quantity's key names its width.
-/
import Chip8.Quantity
import Chip8.Sorting
import Chip8.Text.IntegerLiteral
import Chip8.Text.Quoted

namespace Chip8.Quantity

/-- A value that a quantity can be compared with. -/
inductive Operand
  | address (a : Address)
  | nibble (n : Nibble)
  | number (n : Int)
  | text (s : String)
  | nothing
deriving DecidableEq, Repr

namespace Operand

/-- Whether two operands are equal. -/
def equal : Operand → Operand → Bool
  | address a, address b => a == b
  | nibble a, nibble b => a == b
  | address a, number n | number n, address a => (a.toNat : Int) == n
  | nibble a, number n | number n, nibble a => (a.toNat : Int) == n
  | number a, number b => a == b
  | text a, text b => a == b
  | nothing, nothing => true
  | _, _ => false

/-! ## Order -/

/-- Why two operands cannot be compared. -/
inductive Incomparable
  | unreadable (s : String)
  | tooManyDigits (count : Nat)
  | absent
  | unrelated (left right : Operand)
deriving DecidableEq, Repr

/-- The most characters of a quoted text that a message shows. -/
def quotationLimit : Nat := 200

/-- The name of an operand's type. -/
def typeName : Operand → String
  | address _ => "U12"
  | nibble _ => "U4"
  | number _ => "int"
  | text _ => "str"
  | nothing => "NoneType"

/-- The wording of operands that cannot be compared. -/
def Incomparable.message : Incomparable → String
  | unreadable s =>
    "invalid literal for int() with base 10: " ++
      String.ofList ((Text.Quoted.encode s).toList.take quotationLimit)
  | tooManyDigits count =>
    "Exceeds the limit (" ++ Numeral.decimal Text.IntegerLiteral.Base.decimalLimit ++
      " digits) for integer string conversion: value has " ++ Numeral.decimal count ++
      " digits; use sys.set_int_max_str_digits() to increase the limit"
  | absent =>
    "int() argument must be a string, a bytes-like object or a real number, not 'NoneType'"
  | unrelated left right =>
    "'<' not supported between instances of '" ++ left.typeName ++ "' and '" ++
      right.typeName ++ "'"

/-- An operand as a number; a text is read as one. -/
def numeric : Operand → Except Incomparable Int
  | address a => .ok a.toNat
  | nibble n => .ok n.toNat
  | number n => .ok n
  | text s =>
    match Text.IntegerLiteral.parse .decimal s with
    | .ok n => .ok n
    | .error .malformed => .error (.unreadable s)
    | .error (.tooManyDigits count) => .error (.tooManyDigits count)
  | nothing => .error .absent

/-- Whether an operand is less than another. -/
def less : Operand → Operand → Except Incomparable Bool
  | address a, right => right.numeric.map fun n => decide ((a.toNat : Int) < n)
  | nibble a, right => right.numeric.map fun n => decide ((a.toNat : Int) < n)
  | number a, number b => .ok (decide (a < b))
  | text a, text b => .ok (decide (a < b))
  | left, right => .error (.unrelated left right)

/-- Operands in order, or the first comparison of two that have none. -/
def sorted (os : List Operand) : Except Incomparable (List Operand) := Sorting.sort less os

/-! ## Sets -/

/-- What a set goes by before it compares: the type of a quantity with its
value, or a plain value. -/
inductive HashKey
  | typed (type : String) (value : Nat)
  | plain (value : Int)
  | text (s : String)
  | nothing
deriving DecidableEq, Repr

/-- The hash key of an operand. -/
def hashKey : Operand → HashKey
  | address a => .typed "U12" a.toNat
  | nibble n => .typed "U4" n.toNat
  | number n => .plain n
  | text s => .text s
  | nothing => .nothing

/-- Whether a set takes two operands for one. -/
def sameMember (a b : Operand) : Bool := a.hashKey == b.hashKey && equal a b

/-- The members of the set of some operands, in order of first appearance. -/
def distinct : List Operand → List Operand
  | [] => []
  | o :: rest => o :: (distinct rest).filter fun p => !sameMember o p

/-- The notation of an operand. -/
def notate : Operand → String
  | address a => Quantity.notate a
  | nibble n => Quantity.notate n
  | number n => Numeral.decimal n
  | text s => Text.Quoted.encode s
  | nothing => "None"

end Operand

end Chip8.Quantity
