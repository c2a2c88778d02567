/-
The built-in font: sixteen glyphs for the hexadecimal digits, each five rows
of one byte, of which the high nibble is the picture.
-/
import Chip8.Quantity

namespace Chip8.Font

/-- Rows of a glyph. -/
def glyphHeight : Nat := 5

/-- Columns of a glyph. -/
def glyphWidth : Nat := 4

/-- The rows of all glyphs, digit by digit. -/
def rows : List Byte :=
  [0xF0, 0x90, 0x90, 0x90, 0xF0,
    0x20, 0x60, 0x20, 0x20, 0x70,
    0xF0, 0x10, 0xF0, 0x80, 0xF0,
    0xF0, 0x10, 0xF0, 0x10, 0xF0,
    0x90, 0x90, 0xF0, 0x10, 0x10,
    0xF0, 0x80, 0xF0, 0x10, 0xF0,
    0xF0, 0x80, 0xF0, 0x90, 0xF0,
    0xF0, 0x10, 0x20, 0x40, 0x40,
    0xF0, 0x90, 0xF0, 0x90, 0xF0,
    0xF0, 0x90, 0xF0, 0x10, 0xF0,
    0xF0, 0x90, 0xF0, 0x90, 0x90,
    0xE0, 0x90, 0xE0, 0x90, 0xE0,
    0xF0, 0x80, 0x80, 0x80, 0xF0,
    0xE0, 0x90, 0x90, 0x90, 0xE0,
    0xF0, 0x80, 0xF0, 0x80, 0xF0,
    0xF0, 0x80, 0xF0, 0x80, 0x80]

/-- Where the glyph of a digit starts; only the digit's low nibble counts. -/
def glyphAddress (digit : Int) : Nat := (digit % 16).toNat * glyphHeight

end Chip8.Font
