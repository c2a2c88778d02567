/-
Reading an integer from text: blanks around it, a sign, digits of any script,
single underscores between digits. In base 16 the digits may follow `0x` or
`0X`, and one underscore may stand behind that mark.
-/
import Chip8.Text.Blank
import Chip8.Text.DecimalDigit

namespace Chip8.Text.IntegerLiteral

/-- The bases that are read. -/
inductive Base
  | decimal
  | hexadecimal
deriving DecidableEq, Repr

namespace Base

/-- The base as a number. -/
def radix : Base → Nat
  | decimal => 10
  | hexadecimal => 16

/-- The value of a digit in the base. -/
def digit? : Base → Char → Option Nat
  | decimal => DecimalDigit.value?
  | hexadecimal => DecimalDigit.hexValue?

/-- The most digits that are read in base 10. -/
def decimalLimit : Nat := 4300

/-- The most digits that are read. A power of two as base knows no limit. -/
def maxDigits? : Base → Option Nat
  | decimal => some decimalLimit
  | hexadecimal => none

/-- Whether a character may stand in a run of digits. -/
def isPart (base : Base) (c : Char) : Bool := (base.digit? c).isSome || c == '_'

end Base

/-- Why a text is not read as an integer. -/
inductive Failure
  | malformed
  | tooManyDigits (count : Nat)
deriving DecidableEq, Repr

/-- The values of digits with single underscores between some of them; there
is at least one digit. -/
def digits? (base : Base) : List Char → Option (List Nat)
  | [] => none
  | [c] => (base.digit? c).map ([·])
  | c :: '_' :: rest => do return (← base.digit? c) :: (← digits? base rest)
  | c :: rest => do return (← base.digit? c) :: (← digits? base rest)

/-- The characters behind the mark of the base, if it has one and it is there. -/
def dropMark : Base → List Char → List Char
  | .decimal, cs => cs
  | .hexadecimal, '0' :: x :: rest =>
    if x = 'x' ∨ x = 'X' then
      match rest with
      | '_' :: digits => digits
      | _ => rest
    else '0' :: x :: rest
  | .hexadecimal, cs => cs

/-- The number that digits stand for, most significant first. -/
def valueOf (base : Base) (digits : List Nat) : Nat :=
  digits.foldl (fun n d => n * base.radix + d) 0

/-- A number without a sign. The digits are counted before anything behind
them is looked at. -/
def magnitude (base : Base) (cs : List Char) : Except Failure Nat :=
  match digits? base (cs.takeWhile base.isPart) with
  | none => .error .malformed
  | some digits =>
    if base.maxDigits?.any (· < digits.length) then .error (.tooManyDigits digits.length)
    else if cs.dropWhile base.isPart = [] then .ok (valueOf base digits)
    else .error .malformed

/-- A number with or without a sign. -/
def signed (base : Base) : List Char → Except Failure Int
  | '+' :: rest => (magnitude base (dropMark base rest)).map Int.ofNat
  | '-' :: rest => (magnitude base (dropMark base rest)).map fun n => -Int.ofNat n
  | cs => (magnitude base (dropMark base cs)).map Int.ofNat

/-- The integer a text stands for. -/
def parse (base : Base) (text : String) : Except Failure Int :=
  signed base
    (trimBoth (fun c => isBlank c && !isSeparator c) (text.toList.map DecimalDigit.toAscii))

/-- The integer a text stands for, if it is read as one. -/
def parse? (base : Base) (text : String) : Option Int := (parse base text).toOption

end Chip8.Text.IntegerLiteral
