/-
How a number is written: upper-case digits in a base, zeros up to a least
width, a minus sign in front. The sign counts towards the width.
-/
namespace Chip8.Numeral

/-- The digits of a natural number, most significant first; zero has one. -/
def digits (base n : Nat) : List Char :=
  (Nat.toDigits base n).map Char.toUpper

/-- The sign, then the digits behind as many zeros as the width asks for. -/
def characters (base width : Nat) (n : Int) : List Char :=
  if n < 0 then '-' :: (digits base n.natAbs).leftpad (width - 1) '0'
  else (digits base n.natAbs).leftpad width '0'

/-- A number in a base, zero-padded to at least `width` characters. -/
def render (base width : Nat) (n : Int) : String :=
  String.ofList (characters base width n)

/-- Hexadecimal with upper-case digits. -/
def hex (width : Nat) (n : Int) : String := render 16 width n

/-- Decimal, without padding. -/
def decimal (n : Int) : String := render 10 0 n

/-- Text filled with blanks on its right, to at least `width` characters. -/
def padRight (width : Nat) (s : String) : String :=
  s ++ String.ofList (List.replicate (width - s.length) ' ')

/-- Text filled with blanks on its left, to at least `width` characters. -/
def padLeft (width : Nat) (s : String) : String :=
  String.ofList (List.replicate (width - s.length) ' ') ++ s

end Chip8.Numeral
