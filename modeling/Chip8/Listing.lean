/-
Listings: the bytes of an image read as words from its first byte on.

A word that is no instruction is listed as data with the reason as a comment,
and so is a last byte that has no partner. Every byte of the image belongs to
exactly one entry.
-/
import Chip8.Instruction.Assembly
import Chip8.Instruction.Decoding
import Chip8.Memory
import Chip8.Window

namespace Chip8.Listing

/-- What an entry of a listing shows: the two bytes of a word, or a last byte
without a partner. -/
inductive Content
  | word (hi lo : Byte)
  | trailing (b : Byte)
deriving DecidableEq, Repr

/-- What an entry shows, and the address it is shown at. -/
structure Entry where
  address : Int
  content : Content
deriving DecidableEq, Repr

/-! ## Reading an image -/

/-- The entries of an image, its first byte shown at `start`. -/
def entries (start : Int) : List Byte → List Entry
  | [] => []
  | [b] => [⟨start, .trailing b⟩]
  | hi :: lo :: rest => ⟨start, .word hi lo⟩ :: entries (start + 2) rest

/-- The listing of an image, at most `count` entries if a count is given; a
count below zero counts as zero. -/
def disassemble (image : List Byte) (start : Int) (count : Option Int) : List Entry :=
  match count with
  | none => entries start image
  | some n => (entries start image).take n.toNat

/-- Why a single entry cannot be read. -/
inductive Error
  | beyondData (offset : Int) (length : Nat)
  | noBytes
deriving DecidableEq, Repr

/-- The wording of a failure to read a single entry. -/
def Error.message : Error → String
  | .beyondData offset length =>
    "Offset " ++ Numeral.decimal offset ++ " beyond data length " ++ toString length
  | .noBytes => "index out of range"

/-- The entry of the word at an offset of an image. A negative offset counts
from the end, and fails where the two positions do not enclose two bytes. -/
def entryAt (image : List Byte) (address offset : Int) : Except Error Entry :=
  if image.length ≤ offset then .error (.beyondData offset image.length)
  else if image.length ≤ offset + 1 then
    match Window.cut image offset image.length with
    | [b] => .ok ⟨address, .trailing b⟩
    | _ => .error .noBytes
  else
    match Window.cut image offset (offset + 2) with
    | [hi, lo] => .ok ⟨address, .word hi lo⟩
    | _ => .error .noBytes

/-! ## Entries -/

namespace Content

/-- The bytes of an entry. -/
def bytes : Content → List Byte
  | word hi lo => [hi, lo]
  | trailing b => [b]

/-- The word of an entry; a last byte counts as its own value. -/
def value : Content → Word
  | word hi lo => Word.ofBytes hi lo
  | trailing b => b.setWidth 16

/-- The instruction of an entry, or why it has none. -/
def reading : Content → Except String Instruction
  | word hi lo =>
    match Instruction.decode (Word.ofBytes hi lo) with
    | .ok i => .ok i
    | .error cause => .error cause.description
  | trailing _ => .error "trailing byte"

/-- The instruction of an entry, if it has one. -/
def instruction? (c : Content) : Option Instruction :=
  match c.reading with
  | .ok i => some i
  | .error _ => none

/-- The directive of an entry that is data, and its operand. -/
def directive : Content → String × String
  | word hi lo => (".WORD", "$" ++ Numeral.hex 4 (Word.ofBytes hi lo).toNat)
  | trailing b => (".BYTE", Byte.assembly b)

end Content

namespace Entry

/-- The bytes of an entry. -/
def bytes (e : Entry) : List Byte := e.content.bytes

/-- The number of bytes of an entry. -/
def size (e : Entry) : Nat := e.bytes.length

/-- The instruction of an entry, if it has one. -/
def instruction? (e : Entry) : Option Instruction := e.content.instruction?

/-- Whether an entry is data. -/
def isData (e : Entry) : Bool := e.instruction?.isNone

/-- The first word of an entry's text. -/
def mnemonic (e : Entry) : String :=
  match e.instruction? with
  | some i => i.mnemonic
  | none => e.content.directive.1

/-- What follows the mnemonic. -/
def operandText (e : Entry) : String :=
  match e.instruction? with
  | some i => i.operandText
  | none => e.content.directive.2

/-- Whether an instruction jumps to a given address. -/
def jumpsTo (i : Instruction) (address : Int) : Bool :=
  match i with
  | .jump target => (target.toNat : Int) == address
  | _ => false

/-- The note on an entry: why it is data, or that it halts the machine. -/
def comment (e : Entry) : String :=
  match e.content.reading with
  | .ok i => if jumpsTo i e.address then "halt (jump to self)" else ""
  | .error reason => reason

/-- Mnemonic and operands. -/
def assembly (e : Entry) : String := Instruction.join e.mnemonic e.operandText

/-! ## Lines -/

/-- The address of an entry. -/
def addressText (e : Entry) : String := "$" ++ Numeral.hex 3 e.address

/-- The word of an entry. -/
def wordText (e : Entry) : String := "$" ++ Numeral.hex 4 e.content.value.toNat

/-- Bytes in hexadecimal with blanks between them. -/
def byteColumn (bytes : List Byte) : String :=
  String.intercalate " " (bytes.map fun b => Numeral.hex 2 b.toNat)

/-- Address, bytes, assembly and comment. -/
def line (e : Entry) : String :=
  e.addressText ++ ": " ++ Numeral.padRight 5 (byteColumn e.bytes) ++ "  " ++
    if e.comment = "" then e.assembly
    else Numeral.padRight 16 e.assembly ++ " ; " ++ e.comment

/-- Address, assembly and comment. -/
def briefLine (e : Entry) : String :=
  e.addressText ++ ": " ++ e.assembly ++
    if e.comment = "" then "" else "  ; " ++ e.comment

end Entry

/-! ## Dump -/

/-- An image in groups of sixteen bytes, the last one maybe shorter. -/
def groups (image : List Byte) : List (List Byte) :=
  (List.range ((image.length + 15) / 16)).map fun k => (image.drop (16 * k)).take 16

/-- A line for every group, with the address of its first byte. -/
def dumpLines (image : List Byte) (start : Int) : List String :=
  (groups image).mapIdx fun k group =>
    "; $" ++ Numeral.hex 3 (start + 16 * k) ++ ": " ++ Entry.byteColumn group

end Chip8.Listing
