/-
Upper and lower case as far as ASCII letters arise from it: the letters
themselves, and the few other characters whose Unicode case mapping holds an
ASCII letter. All other characters are left alone, so a comparison with ASCII
words comes out as under the whole mapping.
-/
namespace Chip8.Text

/-- The upper case of a character, which may be several characters. -/
def upperOf (c : Char) : List Char :=
  match c.toNat with
  | 0xDF => ['S', 'S']
  | 0x131 => ['I']
  | 0x149 => ['\u02BC', 'N']
  | 0x17F => ['S']
  | 0x1F0 => ['J', '\u030C']
  | 0x1E96 => ['H', '\u0331']
  | 0x1E97 => ['T', '\u0308']
  | 0x1E98 => ['W', '\u030A']
  | 0x1E99 => ['Y', '\u030A']
  | 0x1E9A => ['A', '\u02BE']
  | 0xFB00 => ['F', 'F']
  | 0xFB01 => ['F', 'I']
  | 0xFB02 => ['F', 'L']
  | 0xFB03 => ['F', 'F', 'I']
  | 0xFB04 => ['F', 'F', 'L']
  | 0xFB05 => ['S', 'T']
  | 0xFB06 => ['S', 'T']
  | _ => [c.toUpper]

/-- The lower case of a character, which may be several characters. -/
def lowerOf (c : Char) : List Char :=
  match c.toNat with
  | 0x130 => ['i', '\u0307']
  | 0x212A => ['k']
  | _ => [c.toLower]

/-- A text in upper case. -/
def upper (cs : List Char) : List Char := cs.flatMap upperOf

/-- A text in lower case. -/
def lower (cs : List Char) : List Char := cs.flatMap lowerOf

end Chip8.Text
