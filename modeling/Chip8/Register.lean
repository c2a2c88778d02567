/-
The sixteen general registers `V0` to `VF`: their names, and a register file.
`VF` doubles as the flag of arithmetic and drawing.
-/
import Chip8.Quantity

namespace Chip8

/-- A register, by its index. -/
abbrev Register := BitVec 4

namespace Register

/-- The register that arithmetic and drawing leave their flag in. -/
def flag : Register := 0xF

/-- How many registers there are. -/
def count : Nat := 16

/-- The register of an index, if there is one. -/
def ofIndex? (index : Int) : Option Register :=
  if 0 ≤ index ∧ index ≤ 0xF then some (BitVec.ofInt 4 index) else none

/-- The name of a register, `V0` to `VF`. -/
def name (r : Register) : String := "V" ++ Numeral.hex 1 r.toNat

/-- All registers, in order. -/
def all : List Register := (List.range 16).map (BitVec.ofNat 4)

end Register

/-- The values of the sixteen registers. -/
structure RegisterFile where
  values : Vector Byte 16 := Vector.replicate 16 0
deriving DecidableEq, Repr

namespace RegisterFile

/-- The value of a register. -/
def read (f : RegisterFile) (r : Register) : Byte := f.values[r.toFin]

/-- The file with one register set. -/
def write (f : RegisterFile) (r : Register) (b : Byte) : RegisterFile :=
  ⟨f.values.set r.toFin b⟩

/-- The file with the flag register telling a condition. -/
def writeFlag (f : RegisterFile) (b : Bool) : RegisterFile :=
  f.write .flag (if b then 1 else 0)

/-- The values of all registers, in order. -/
def toList (f : RegisterFile) : List Byte := f.values.toList

@[simp] theorem read_write (f : RegisterFile) (r s : Register) (b : Byte) :
    (f.write r b).read s = if r = s then b else f.read s := by
  simp [read, write, Vector.getElem_set, BitVec.toNat_inj]

/-- The values of `V0` to `Vx`, in order. -/
def block (f : RegisterFile) (x : Register) : List Byte := f.toList.take (x.toNat + 1)

/-- Loads values into `V0`, `V1`, … in order. -/
def loadBlock (f : RegisterFile) (values : List Byte) : RegisterFile :=
  ⟨Vector.ofFn fun k => values[k.val]?.getD f.values[k]⟩

end RegisterFile

end Chip8
