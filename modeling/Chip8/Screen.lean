/-
The screen: 32 rows of 64 pixels, a row being 64 bits with the leftmost pixel
in the most significant one.

A sprite is a column of bytes. Its start wraps around the screen; what then
lies beyond the right or the bottom edge is cut off. Drawing turns over the
pixels under the sprite's set bits and tells whether a lit one went out.
-/
import Chip8.Quantity

namespace Chip8

/-- The pixels, by row. -/
structure Screen where
  rows : Vector (BitVec 64) 32 := Vector.replicate 32 0
deriving DecidableEq, Repr

namespace Screen

/-- Pixels in a row. -/
def width : Nat := 64

/-- Rows. -/
def height : Nat := 32

/-- The screen with every pixel off. -/
def blank : Screen := {}

/-! ## Pixels -/

/-- Whether a pixel is lit; none is beyond the edges. -/
def lit (s : Screen) (x y : Nat) : Bool :=
  match s.rows[y]? with
  | some row => row.getMsbD x
  | none => false

/-- A position beyond the edges. -/
structure OffScreen where
  x : Int
  y : Int
deriving DecidableEq, Repr

/-- The wording of a position beyond the edges. -/
def OffScreen.message (p : OffScreen) : String :=
  "Invalid position (" ++ Numeral.decimal p.x ++ ", " ++ Numeral.decimal p.y ++ ")"

/-- Whether a position is on the screen. -/
def contains (x y : Int) : Bool := 0 ≤ x && x < width && 0 ≤ y && y < height

/-- The pixel at a position. -/
def pixel (s : Screen) (x y : Int) : Except OffScreen Bool :=
  if contains x y then .ok (s.lit x.toNat y.toNat) else .error ⟨x, y⟩

/-- A row with nothing but the pixel of one column. -/
def dot (x : Nat) : BitVec 64 := BitVec.twoPow 64 63 >>> x

/-- The screen with one pixel switched. -/
def setPixel (s : Screen) (x y : Int) (on : Bool) : Except OffScreen Screen :=
  if contains x y then
    .ok ⟨s.rows.mapFinIdx fun k row _ =>
      if k ≠ y.toNat then row
      else if on then row ||| dot x.toNat
      else row &&& ~~~dot x.toNat⟩
  else .error ⟨x, y⟩

/-- The pixels of a row, left to right. -/
def pixelRow (s : Screen) (y : Nat) : List Bool := (List.range width).map fun x => s.lit x y

/-- The pixels of every row, top to bottom. -/
def pixelRows (s : Screen) : List (List Bool) := (List.range height).map s.pixelRow

/-- How many pixels are lit. -/
def litCount (s : Screen) : Nat := s.pixelRows.flatten.count true

/-! ## Drawing -/

/-- A sprite's byte as a row, its left end at a column, cut off at the right edge. -/
def placed (x : Nat) (b : Byte) : BitVec 64 := (b ++ 0#56) >>> x

/-- What a sprite that starts at a column and row lays on row `k`. -/
def mask (x y : Nat) (sprite : List Byte) (k : Nat) : BitVec 64 :=
  if k < y then 0 else
    match sprite[k - y]? with
    | some b => placed x b
    | none => 0

/-- The column a sprite starts at. -/
def startColumn (x : Int) : Nat := (x % width).toNat

/-- The row a sprite starts at. -/
def startRow (y : Int) : Nat := (y % height).toNat

/-- The screen after drawing a sprite. -/
def draw (s : Screen) (x y : Int) (sprite : List Byte) : Screen :=
  ⟨s.rows.mapFinIdx fun k row _ => row ^^^ mask (startColumn x) (startRow y) sprite k⟩

/-- Whether drawing a sprite would put out a lit pixel. -/
def collides (s : Screen) (x y : Int) (sprite : List Byte) : Bool :=
  (List.finRange height).any fun k =>
    s.rows[k] &&& mask (startColumn x) (startRow y) sprite k ≠ 0

/-! ## Showing -/

/-- The rows as text, one text for a lit and one for a dark pixel. -/
def textRows (s : Screen) (on off : String) : List String :=
  s.pixelRows.map fun row => String.join (row.map fun p => if p then on else off)

/-- The whole screen as text. -/
def text (s : Screen) (on off : String) : String := String.intercalate "\n" (s.textRows on off)

/-- One line on the state of the screen. -/
def summary (s : Screen) : String :=
  "FrameBuffer(64x32, lit=" ++ toString s.litCount ++ ")"

end Screen

end Chip8
