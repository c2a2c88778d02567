/-
Searching a list that a test divides: it holds of the elements up to some place
and of none behind. The search looks 1, 3, 7, … places ahead and then halves
what is left, so a place near the start is found after few tests.

The test may fail, and a failure ends the search. So which elements are tested
is part of the result.
-/
import Chip8.Except

namespace Chip8.Sorting

variable {α ε : Type}

/-- Which one is tested where an even number of elements has two in the middle. -/
inductive Middle
  | lower
  | upper
deriving DecidableEq, Repr

/-- The middle of the places from `low` on and before `high`. -/
def Middle.between : Middle → Nat → Nat → Nat
  | lower, low, high => low + (high - low - 1) / 2
  | upper, low, high => low + (high - low) / 2

theorem Middle.le_between (m : Middle) (low high : Nat) : low ≤ m.between low high := by
  cases m <;> simp [between]

theorem Middle.between_lt (m : Middle) {low high : Nat} (h : low < high) :
    m.between low high < high := by
  cases m <;> simp only [between] <;> omega

/-- The first place of those from `low` on and before `high` where a test fails
to hold, or `high`. -/
def bisect (test : α → Except ε Bool) (m : Middle) (as : List α) (low high : Nat) :
    Except ε Nat :=
  if low < high then
    match as[m.between low high]? with
    | none => .ok low
    | some a => do
      if ← test a then bisect test m as (m.between low high + 1) high
      else bisect test m as low (m.between low high)
  else .ok low
termination_by high - low
decreasing_by
  all_goals
    have := m.le_between low high
    have := m.between_lt ‹low < high›
    omega

/-- Looks ahead in ever longer strides as long as a test holds: the last place
where it did, and the first where it did not or the end. -/
def stride (test : α → Except ε Bool) (as : List α) (last next : Nat) : Except ε (Nat × Nat) :=
  if h : next < as.length then do
    if ← test as[next] then stride test as next (2 * next + 1) else return (last, next)
  else .ok (last, as.length)
termination_by as.length - next

/-- How many elements at the start of a list a test holds of. -/
def lead (test : α → Except ε Bool) (m : Middle) : List α → Except ε Nat
  | [] => .ok 0
  | a :: as => do
    if ← test a then
      let (last, next) ← stride test (a :: as) 0 1
      bisect test m (a :: as) (last + 1) next
    else return 0

end Chip8.Sorting
