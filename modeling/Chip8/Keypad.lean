/-
The keypad: which keys are held down. Only its user changes that.
-/
import Chip8.Key

namespace Chip8

/-- One flag for each key. -/
structure Keypad where
  held : Vector Bool 16 := Vector.replicate 16 false
deriving DecidableEq, Repr

namespace Keypad

/-- The keypad with no key held. -/
def released : Keypad := {}

/-- Whether a key is held down. -/
def isHeld (p : Keypad) (k : Key) : Bool := p.held[k.toFin]

/-- The keypad with one key held or let go. -/
def set (p : Keypad) (k : Key) (down : Bool) : Keypad := ⟨p.held.set k.toFin down⟩

@[simp] theorem isHeld_set (p : Keypad) (k l : Key) (down : Bool) :
    (p.set k down).isHeld l = if k = l then down else p.isHeld l := by
  simp [isHeld, set, Vector.getElem_set, BitVec.toNat_inj]

@[simp] theorem isHeld_released (k : Key) : released.isHeld k = false := by
  simp [released, isHeld]

/-- The keys that are held, in order. -/
def heldKeys (p : Keypad) : List Key := Key.all.filter p.isHeld

theorem mem_heldKeys {p : Keypad} {k : Key} : k ∈ p.heldKeys ↔ p.isHeld k = true := by
  have hall : k ∈ Key.all := by
    revert k
    decide
  rw [heldKeys, List.mem_filter]
  exact and_iff_right hall

/-- Holds down or lets go of the key a reference names. -/
def assign (p : Keypad) (ref : Key.Reference) (down : Bool) : Except Key.Unresolved Keypad :=
  (Key.resolve ref).map fun k => p.set k down

/-- Whether the key a reference names is held. -/
def look (p : Keypad) (ref : Key.Reference) : Except Key.Unresolved Bool :=
  (Key.resolve ref).map p.isHeld

/-- A key with a star behind it if it is held. -/
def cell (p : Keypad) (k : Key) : String := k.label ++ if p.isHeld k then "*" else " "

/-- The keypad as a grid of keys. -/
def grid (p : Keypad) : String :=
  String.intercalate "\n" (Key.layout.map fun row => String.intercalate " " (row.map p.cell))

/-- One line on the state of the keypad. -/
def summary (p : Keypad) : String :=
  "Keyboard(pressed='" ++ String.join (p.heldKeys.map Key.label) ++ "')"

end Keypad

end Chip8
