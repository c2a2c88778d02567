/-
The call stack: sixteen slots for return addresses, of which the first `depth`
are live. A slot keeps its value after it has been popped, but only the live
ones can be seen.
-/
import Chip8.Quantity

namespace Chip8

/-- Sixteen slots and the number of live ones. -/
structure CallStack where
  slots : Vector Word 16 := Vector.replicate 16 0
  depth : Nat := 0
  depth_le : depth ≤ 16 := by omega
deriving DecidableEq, Repr

namespace CallStack

/-- The most return addresses that are held. -/
def limit : Nat := 16

/-- The live return addresses, oldest first. -/
def live (s : CallStack) : List Word := s.slots.toList.take s.depth

/-- The stack with one more return address, if there is room. -/
def push? (s : CallStack) (a : Word) : Option CallStack :=
  if h : s.depth < 16 then
    some { slots := s.slots.set s.depth a, depth := s.depth + 1 }
  else none

/-- The newest return address and the stack without it, if there is one. -/
def pop? (s : CallStack) : Option (Word × CallStack) :=
  if h : 0 < s.depth then
    have := s.depth_le
    some (s.slots[s.depth - 1], { slots := s.slots, depth := s.depth - 1 })
  else none

@[simp] theorem length_live (s : CallStack) : s.live.length = s.depth := by
  have := s.depth_le
  simp [live]
  omega

theorem live_of_push? {s t : CallStack} {a : Word} (h : s.push? a = some t) :
    t.live = s.live ++ [a] := by
  unfold push? at h
  split at h
  next room =>
    cases h
    apply List.ext_getElem?
    intro k
    simp only [live, Vector.toList_set, List.getElem?_take, List.getElem?_append, List.length_take,
      Vector.length_toList]
    grind
  next => cases h

theorem live_of_pop? {s t : CallStack} {a : Word} (h : s.pop? = some (a, t)) :
    s.live = t.live ++ [a] := by
  unfold pop? at h
  split at h
  next room =>
    cases h
    have := s.depth_le
    calc s.slots.toList.take s.depth
        = s.slots.toList.take (s.depth - 1 + 1) := by rw [Nat.sub_add_cancel room]
      _ = s.slots.toList.take (s.depth - 1) ++ [s.slots[s.depth - 1]] := by
        rw [List.take_add_one, Vector.getElem?_toList, Vector.getElem?_eq_getElem (by omega)]
        rfl
  next => cases h

/-- The value a slot shows: zero unless it is live. -/
def shown (s : CallStack) (slot : Nat) : Word := s.live[slot]?.getD 0

end CallStack

end Chip8
