/-
Runs: stretches of a list that are in order as they stand, or in strictly
falling order and so turned round. A short run is made longer by putting the
elements behind it into their places one by one.
-/
import Chip8.Sorting.Search

namespace Chip8.Sorting

variable {α ε : Type}

/-- How many elements of a list continue a run from the element before them.
In a falling run each is less than the one before, in the other kind none is. -/
def runLength (less : α → α → Except ε Bool) (falling : Bool) : α → List α → Except ε Nat
  | _, [] => .ok 0
  | a, b :: rest => do
    if (← less b a) = falling then return (← runLength less falling b rest) + 1
    else return 0

/-- Whether the run from an element on is falling, and how many elements continue it. -/
def runFrom (less : α → α → Except ε Bool) (a : α) : List α → Except ε (Bool × Nat)
  | [] => .ok (false, 0)
  | b :: rest => do
    let falling ← less b a
    return (falling, (← runLength less falling b rest) + 1)

/-- Puts an element behind those of a sorted list that it is not less than. -/
def insert (less : α → α → Except ε Bool) (sorted : List α) (a : α) : Except ε (List α) := do
  let k ← bisect (fun b => (!·) <$> less a b) .upper sorted 0 sorted.length
  return sorted.take k ++ a :: sorted.drop k

theorem perm_of_insert {less : α → α → Except ε Bool} {a : α} {sorted result : List α}
    (h : insert less sorted a = .ok result) : result.Perm (a :: sorted) := by
  obtain ⟨k, _, h⟩ := ok_of_bind h
  cases h
  exact .trans List.perm_middle (by simp)

/-- A run in order, of at least a number of elements if there are so many, and
how many of the elements behind the first are in it. -/
def nextRun (less : α → α → Except ε Bool) (least : Nat) (a : α) (as : List α) :
    Except ε (List α × Nat) := do
  let (falling, k) ← runFrom less a as
  let run := a :: as.take k
  let more := (as.drop k).take (least - (k + 1))
  let run ← more.foldlM (insert less) (if falling then run.reverse else run)
  return (run, k + more.length)

theorem perm_of_insertAll {less : α → α → Except ε Bool} {more sorted result : List α}
    (h : more.foldlM (insert less) sorted = .ok result) : result.Perm (sorted ++ more) := by
  induction more generalizing sorted with
  | nil => cases h; simp
  | cons a more ih =>
    obtain ⟨next, hn, h⟩ := ok_of_bind h
    exact .trans (ih h) (.trans ((perm_of_insert hn).append_right more) List.perm_middle.symm)

theorem perm_of_nextRun {less : α → α → Except ε Bool} {least k : Nat} {a : α} {as run : List α}
    (h : nextRun less least a as = .ok (run, k)) : run.Perm (a :: as.take k) := by
  obtain ⟨⟨falling, k'⟩, _, h⟩ := ok_of_bind h
  obtain ⟨run, hr, h⟩ := ok_of_bind h
  cases h
  refine .trans (perm_of_insertAll hr) ?_
  have turned : (if falling then (a :: as.take k').reverse else a :: as.take k').Perm
      (a :: as.take k') := by
    split
    · exact List.reverse_perm _
    · exact .refl _
  refine .trans (turned.append_right _) (.of_eq ?_)
  simp [List.take_add]

end Chip8.Sorting
