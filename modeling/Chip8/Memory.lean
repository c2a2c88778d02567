/-
Memory: 4096 bytes, the font at the bottom and the program from `$200` on.

Every integer names a place, modulo 4096, so that a block running over the top
goes on at the bottom.
-/
import Chip8.Fault
import Chip8.Font

namespace Chip8

/-- The bytes, and how many of them the loaded program took. -/
structure Memory where
  bytes : Vector Byte 4096
  programSize : Nat := 0
deriving DecidableEq

namespace Memory

/-- How many bytes there are. -/
def size : Nat := 4096

/-- Where programs start. -/
def programStart : Nat := 0x200

/-- The longest program that is loaded. -/
def programLimit : Nat := 0xE00

/-! ## Loading -/

/-- What a place holds at first: the font, the program, and zero elsewhere. -/
def initial (font program : Array Byte) (place : Nat) : Byte :=
  if place < programStart then font[place]?.getD 0 else program[place - programStart]?.getD 0

/-- The memory with a program in it, unless the program is too long. -/
def load (program : List Byte) : Except Fault Memory :=
  if programLimit < program.length then
    .error { cause := .programTooLarge program.length programLimit }
  else
    let font := Font.rows.toArray
    let image := program.toArray
    .ok { bytes := Vector.ofFn fun place => initial font image place, programSize := program.length }

/-! ## Access -/

/-- The byte at an address. -/
def get (m : Memory) (a : Address) : Byte := m.bytes[a.toFin]

/-- The memory with one byte replaced. -/
def set (m : Memory) (a : Address) (b : Byte) : Memory :=
  { m with bytes := m.bytes.set a.toFin b }

@[simp] theorem get_set (m : Memory) (a c : Address) (b : Byte) :
    (m.set a b).get c = if a = c then b else m.get c := by
  simp [get, set, Vector.getElem_set, BitVec.toNat_inj]

/-- The byte at the place an integer names. -/
def read (m : Memory) (place : Int) : Byte := m.get (BitVec.ofInt 12 place)

/-- The memory with the low byte of `value` at the place an integer names. -/
def write (m : Memory) (place value : Int) : Memory :=
  m.set (BitVec.ofInt 12 place) (BitVec.ofInt 8 value)

/-- The word at a place and the next one, high byte first. -/
def readWord (m : Memory) (place : Int) : Word := Word.ofBytes (m.read place) (m.read (place + 1))

/-- The bytes from a place on; none for a negative count. -/
def readBytes (m : Memory) (place count : Int) : List Byte :=
  (List.range count.toNat).map fun (k : Nat) => m.read (place + k)

/-- Writes bytes from a place on. -/
def writeBytes (m : Memory) (place : Int) : List Byte → Memory
  | [] => m
  | b :: rest => (m.set (BitVec.ofInt 12 place) b).writeBytes (place + 1) rest

/-- All bytes, in order. -/
def dump (m : Memory) : List Byte := m.bytes.toList

end Memory

end Chip8
