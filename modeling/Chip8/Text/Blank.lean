/-
Blank characters: those of Unicode's property White_Space and the four
information separators. Stripping removes them from both ends of a text.
-/
namespace Chip8.Text

/-- Whether a character is blank. -/
def isBlank (c : Char) : Bool :=
  let n := c.toNat
  (9 ≤ n && n ≤ 13) || (28 ≤ n && n ≤ 32) || n == 0x85 || n == 0xA0 || n == 0x1680 ||
    (0x2000 ≤ n && n ≤ 0x200A) || n == 0x2028 || n == 0x2029 || n == 0x202F || n == 0x205F ||
    n == 0x3000

/-- The information separators, which are blank but belong to a number's text. -/
def isSeparator (c : Char) : Bool := 28 ≤ c.toNat && c.toNat ≤ 31

/-- The characters without those at both ends that satisfy a test. -/
def trimBoth (test : Char → Bool) (cs : List Char) : List Char :=
  ((cs.dropWhile test).reverse.dropWhile test).reverse

/-- The characters without the blank ones at both ends. -/
def strip (cs : List Char) : List Char := trimBoth isBlank cs

end Chip8.Text
