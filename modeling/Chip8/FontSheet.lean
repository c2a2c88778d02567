/-
The font as the machine's memory holds it: as text, eight glyphs in a row, and
drawn on the screen.
-/
import Chip8.Machine

namespace Chip8.FontSheet

/-- Glyphs in a row. -/
def glyphsPerRow : Nat := 8

/-- A row of a glyph as text: its four leftmost bits. -/
def rowText (b : Byte) : String :=
  String.ofList ((List.range Font.glyphWidth).map fun k => if b.getMsbD k then '#' else '.')

/-- The rows of the glyph of a digit. -/
def glyphBytes (m : Memory) (digit : Int) : List Byte :=
  m.readBytes (Font.glyphAddress digit) Font.glyphHeight

/-- The rows of the glyph of a digit as text. -/
def glyphRows (m : Memory) (digit : Int) : List String := (glyphBytes m digit).map rowText

/-- Texts with two blanks between them. -/
def joined (cells : List String) : String := String.intercalate "  " cells

/-- Eight glyphs from the given digit on, under their digits. -/
def block (m : Memory) (first : Nat) : List String :=
  let digits := List.range' first glyphsPerRow
  joined (digits.map fun (d : Nat) => Numeral.padRight Font.glyphWidth (Numeral.hex 1 d)) ::
    (List.range Font.glyphHeight).map fun row =>
      joined (digits.map fun (d : Nat) => ((glyphRows m d)[row]?).getD "")

/-- All glyphs, eight in a row. -/
def sheet (m : Memory) : String :=
  String.intercalate "\n" (block m 0 ++ "" :: block m glyphsPerRow)

/-- Draws the glyph of a digit at its place. -/
def drawGlyph (m : Memory) (s : Screen) (digit : Nat) : Screen :=
  s.draw (digit % glyphsPerRow * 8 + 2 : Nat) (digit / glyphsPerRow * 16 + 5 : Nat)
    (glyphBytes m digit)

/-- Draws all glyphs. -/
def draw (m : Memory) (s : Screen) : Screen := (List.range 16).foldl (drawGlyph m) s

end Chip8.FontSheet
