/-
An endless supply of values that are drawn one after another: the readings of
a clock, or random bytes. It counts what has been drawn.
-/
namespace Chip8

/-- A sequence of values, and how many have been drawn from it. -/
structure Supply (α : Type) where
  sequence : Nat → α
  drawn : Nat := 0

namespace Supply

/-- A supply that gives the same value for ever. -/
def constant {α : Type} (a : α) : Supply α := { sequence := fun _ => a }

/-- A supply that goes through a list again and again; an empty list gives the
fallback for ever. -/
def cycle {α : Type} (fallback : α) (values : List α) : Supply α :=
  let table := values.toArray
  { sequence := fun k => table[k % table.size]?.getD fallback }

/-- The value that is drawn next. -/
def peek {α : Type} (s : Supply α) : α := s.sequence s.drawn

/-- The supply after drawing one value. -/
def advance {α : Type} (s : Supply α) : Supply α := { s with drawn := s.drawn + 1 }

end Supply

end Chip8
