/-
A text between quotes with its unprintable characters escaped. The quotes are
single, or double where the text holds single quotes and no double ones; the
quote in use and the backslash are escaped too.
-/
import Chip8.Numeral
import Chip8.Text.Blank
import Chip8.Text.Graphic

namespace Chip8.Text.Quoted

/-- Whether a character is shown as it is: graphic, and of the blanks only the space. -/
def isPrintable (c : Char) : Bool := isGraphic c && (c == ' ' || !isBlank c)

/-- A number in lower-case hexadecimal of the given width. -/
def hexCode (width n : Nat) : List Char :=
  (Numeral.characters 16 width n).map Char.toLower

/-- A character as it stands between the given quotes. -/
def escape (quote c : Char) : List Char :=
  if c = quote ∨ c = '\\' then ['\\', c]
  else if c = '\n' then ['\\', 'n']
  else if c = '\r' then ['\\', 'r']
  else if c = '\t' then ['\\', 't']
  else if isPrintable c then [c]
  else
    let n := c.toNat
    if n < 0x100 then '\\' :: 'x' :: hexCode 2 n
    else if n < 0x10000 then '\\' :: 'u' :: hexCode 4 n
    else '\\' :: 'U' :: hexCode 8 n

/-- The quote a text is written between. -/
def quoteFor (cs : List Char) : Char :=
  if '\'' ∈ cs ∧ '"' ∉ cs then '"' else '\''

/-- A text between quotes. -/
def encode (text : String) : String :=
  let cs := text.toList
  let quote := quoteFor cs
  String.ofList (quote :: cs.flatMap (escape quote) ++ [quote])

end Chip8.Text.Quoted
