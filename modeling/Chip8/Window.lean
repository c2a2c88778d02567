/-
A part of a list between two positions. A negative position counts from the
end; positions beyond an end mean that end.
-/
namespace Chip8.Window

/-- The place in a list of the given length that a position means. -/
def place (length : Nat) (position : Int) : Nat :=
  if position < 0 then (length + position).toNat else min position.toNat length

/-- The elements from one position up to another, the latter left out. -/
def cut {α : Type} (xs : List α) (start stop : Int) : List α :=
  (xs.take (place xs.length stop)).drop (place xs.length start)

end Chip8.Window
