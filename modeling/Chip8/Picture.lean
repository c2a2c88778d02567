/-
Pictures of the screen in colour: every pixel becomes a square of `scale` by
`scale` dots, in the foreground colour of a scheme if it is lit and in the
background colour otherwise. Rows and dots are kept as runs.
-/
import Chip8.Screen
import Chip8.Runs

namespace Chip8

/-- A colour by its three parts. -/
structure Colour where
  red : Byte
  green : Byte
  blue : Byte
deriving DecidableEq, Repr

namespace Colour

/-- Six hexadecimal digits, in lower case. -/
def code (c : Colour) : String :=
  String.ofList ([c.red, c.green, c.blue].flatMap fun part =>
    (Numeral.characters 16 2 part.toNat).map Char.toLower)

end Colour

/-- A colour scheme. -/
structure Scheme where
  foreground : Colour
  background : Colour
deriving DecidableEq, Repr

namespace Scheme

/-- Amber on black. -/
def dark : Scheme := ⟨⟨0xFF, 0xAA, 0x00⟩, ⟨0x00, 0x00, 0x00⟩⟩

/-- Black on white. -/
def light : Scheme := ⟨⟨0x00, 0x00, 0x00⟩, ⟨0xFF, 0xFF, 0xFF⟩⟩

/-- The schemes by name, in alphabetical order. -/
def all : List (String × Scheme) := [("dark", dark), ("light", light)]

/-- The scheme of a name. -/
def named? (name : String) : Option Scheme := all.lookup name

/-- The names of the schemes, for messages. -/
def names : String := String.intercalate ", " (all.map Prod.fst)

/-- The colour of a pixel. -/
def colour (s : Scheme) (lit : Bool) : Colour := if lit then s.foreground else s.background

end Scheme

/-- A picture: runs of rows, each row being runs of dots. -/
structure Picture where
  width : Nat
  height : Nat
  rows : Runs (Runs Colour)
deriving DecidableEq, Repr

namespace Picture

/-- The colour of a dot, counted from the top left. -/
def colour? (p : Picture) (x y : Nat) : Option Colour := (p.rows.get? y).bind fun row => row.get? x

/-- Why no picture can be made. -/
inductive Error
  | scaleTooSmall (scale : Int)
  | unknownScheme (name : String)
  | tooWide (width : Nat)
  | tooLarge
deriving DecidableEq, Repr

/-- The greatest width of a picture: a signed number of 32 bits. -/
def widthLimit : Nat := 0x7FFFFFFF

/-- The greatest number of dots that are held in memory. -/
def dotLimit : Nat := 0x100000000

/-- The wording of a failure to make a picture. -/
def Error.message : Error → String
  | .scaleTooSmall scale => "Scale must be at least 1, got " ++ Numeral.decimal scale
  | .unknownScheme name =>
    "Unknown colour scheme '" ++ name ++ "'. Available: " ++ Scheme.names
  | .tooWide width =>
    if width < 0x8000000000000000 then "signed integer is greater than maximum"
    else "Python int too large to convert to C long"
  | .tooLarge => "image has wrong mode"

/-- The picture of a screen in a scheme, a dot for every pixel. -/
def ofScreen (s : Screen) (scheme : Scheme) : Picture :=
  { width := Screen.width
    height := Screen.height
    rows := Runs.ofList (s.pixelRows.map fun row => Runs.ofList (row.map scheme.colour)) }

/-- A picture with a square of `factor` by `factor` dots in place of every dot. -/
def stretch (p : Picture) (factor : Nat) : Picture :=
  { width := p.width * factor
    height := p.height * factor
    rows := (p.rows.map (Runs.stretch factor)).stretch factor }

/-- A picture stretched, unless that would be too large. -/
def enlarge (p : Picture) (factor : Nat) : Except Error Picture :=
  let picture := p.stretch factor
  if widthLimit < picture.width then .error (.tooWide picture.width)
  else if dotLimit < picture.width * picture.height then .error .tooLarge
  else .ok picture

end Picture

/-- The picture of a screen, made larger by a given function. The scale is looked
at first, then the scheme. -/
def Screen.pictureBy (enlarge : Picture → Nat → Except Picture.Error Picture) (s : Screen)
    (scale : Int) (scheme : String) : Except Picture.Error Picture :=
  if scale < 1 then .error (.scaleTooSmall scale)
  else
    match Scheme.named? scheme with
    | none => .error (.unknownScheme scheme)
    | some colours =>
      let picture := Picture.ofScreen s colours
      if 1 < scale then enlarge picture scale.toNat else .ok picture

/-- The picture of a screen. -/
def Screen.picture (s : Screen) (scale : Int) (scheme : String) : Except Picture.Error Picture :=
  s.pictureBy Picture.enlarge scale scheme

end Chip8
