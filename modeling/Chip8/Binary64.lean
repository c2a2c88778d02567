/-
The binary64 number nearest to a quotient of integers; of two that are equally
near, the one whose last bit is zero. A quotient that rounds to `2 ^ 1024` or
more has none.
-/
namespace Chip8.Binary64

/-- A quotient rounded to an integer, a half going to the even neighbour. -/
def roundQuotient (num den : Nat) : Nat :=
  let q := num / den
  let twice := 2 * (num % den)
  if den < twice ∨ (twice = den ∧ q % 2 = 1) then q + 1 else q

/-- The exponent of the last bit of the nearest number to a positive quotient:
the one that leaves 53 bits, but none below that of the smallest number. -/
def lastBitExponent (num den : Nat) : Int :=
  let e : Int := num.log2 - den.log2
  let aboveHalf := if 0 ≤ e then den <<< e.toNat ≤ num else den ≤ num <<< (-e).toNat
  max (if aboveHalf then e - 52 else e - 53) (-1074)

/-- The bit that a full significand starts with: `2 ^ 52`. -/
def leadingBit : Nat := 0x10000000000000

/-- The bits of infinity: the least that no number has. -/
def infinityBits : Nat := 0x7FF0000000000000

/-- The bit that marks a number as negative. -/
def signBit : Nat := 0x8000000000000000

/-- The bits of the nearest number to a quotient, without a sign. -/
def magnitudeBits (num den : Nat) : Nat :=
  if num = 0 then 0
  else
    let e := lastBitExponent num den
    let significand := roundQuotient (num <<< (-e).toNat) (den <<< e.toNat)
    if significand < leadingBit then significand
    else (e + 1075).toNat * leadingBit + (significand - leadingBit)

/-- The nearest number to a quotient with the given sign, unless it is too large. -/
def ofQuotient? (negative : Bool) (num den : Nat) : Option Float :=
  let bits := magnitudeBits num den
  if infinityBits ≤ bits then none
  else some (Float.ofBits (UInt64.ofNat (if negative then signBit + bits else bits)))

/-- The nearest number to `n / d`, for `d` other than zero. It is negative if
exactly one of the two is, also when it is zero. -/
def quotient? (n d : Int) : Option Float :=
  ofQuotient? ((n < 0) != (d < 0)) n.natAbs d.natAbs

/-- The nearest number to an integer. -/
def ofInt? (n : Int) : Option Float := quotient? n 1

end Chip8.Binary64
