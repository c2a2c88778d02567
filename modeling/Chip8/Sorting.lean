/-
Sorting by a comparison that may fail, the first failure being the result. So
it matters which elements are compared, and in what order.

The list is cut into runs from its start. Each boundary between two runs has a
power: how often the list has to be halved for a cut to fall between the
middles of the two runs. A boundary of higher power is closer to a balanced
merge of few elements, and its runs are merged first.
-/
import Chip8.Sorting.Merge
import Chip8.Sorting.Run

namespace Chip8.Sorting

variable {α ε : Type}

/-- The least length of a run: the length of the list, halved as often as it
takes to come below 64, and then rounded up. -/
def leastRun (n : Nat) : Nat :=
  let halvings := n.log2 - 5
  (n + (1 <<< halvings - 1)) >>> halvings

/-- The power of the boundary between two runs of `n₁` and `n₂` elements, the
first starting at `start` in a list of `n`. -/
def power (n start n₁ n₂ : Nat) : Nat :=
  let middle := 2 * start + n₁
  let next := middle + n₁ + n₂
  ((List.range n.log2).find? fun p => (middle <<< p) / n ≠ (next <<< p) / n).getD n.log2 + 1

/-- A run that waits to be merged, and the power of the boundary behind it. -/
structure Pending (α : Type) where
  start : Nat
  elements : List α
  power : Nat := 0

/-- A run with the one that follows it merged into it. -/
def Pending.absorb (less : α → α → Except ε Bool) (patience : Nat) (p next : Pending α) :
    Except ε (Pending α × Nat) := do
  let (elements, patience) ← merge less patience p.elements next.elements
  return ({ p with elements }, patience)

theorem perm_of_absorb {less : α → α → Except ε Bool} {patience rest : Nat}
    {p next joined : Pending α} (h : p.absorb less patience next = .ok (joined, rest)) :
    joined.elements.Perm (p.elements ++ next.elements) := by
  obtain ⟨⟨_, _⟩, hm, h⟩ := ok_of_bind h
  cases h
  exact perm_of_merge hm

/-- Merges runs, the newest standing first, at boundaries of more than a power. -/
def settle (less : α → α → Except ε Bool) (power patience : Nat) :
    List (Pending α) → Except ε (List (Pending α) × Nat)
  | last :: before :: rest =>
    if power < before.power then do
      let (joined, patience) ← before.absorb less patience last
      settle less power patience (joined :: rest)
    else .ok (last :: before :: rest, patience)
  | runs => .ok (runs, patience)
termination_by runs => runs.length

theorem perm_of_settle {less : α → α → Except ε Bool} {power patience rest : Nat}
    {runs result : List (Pending α)} (h : settle less power patience runs = .ok (result, rest)) :
    (result.flatMap Pending.elements).Perm (runs.flatMap Pending.elements) := by
  fun_induction settle less power patience runs with
  | case1 patience last before more _ ih =>
    obtain ⟨⟨joined, _⟩, hj, h⟩ := ok_of_bind h
    refine .trans (ih _ _ h) ?_
    simp only [List.flatMap_cons, ← List.append_assoc]
    exact .append_right _ (.trans (perm_of_absorb hj) List.perm_append_comm)
  | case2 => cases h; exact .refl _
  | case3 => cases h; exact .refl _

/-- Adds a run behind the others of a list of `n` elements. -/
def push (less : α → α → Except ε Bool) (n patience : Nat) (run : List α) :
    List (Pending α) → Except ε (List (Pending α) × Nat)
  | [] => .ok ([{ start := 0, elements := run }], patience)
  | last :: rest => do
    let power := power n last.start last.elements.length run.length
    let next : Pending α := { start := last.start + last.elements.length, elements := run }
    let (runs, patience) ← settle less power patience (last :: rest)
    match runs with
    | [] => return ([next], patience)
    | last :: rest => return (next :: { last with power } :: rest, patience)

theorem perm_of_push {less : α → α → Except ε Bool} {n patience rest : Nat} {run : List α}
    {runs result : List (Pending α)} (h : push less n patience run runs = .ok (result, rest)) :
    (result.flatMap Pending.elements).Perm (run ++ runs.flatMap Pending.elements) := by
  unfold push at h
  split at h
  · cases h; simp
  · obtain ⟨⟨settled, _⟩, hs, h⟩ := ok_of_bind h
    have := (perm_of_settle hs).append_left run
    dsimp only at h
    split at h
    all_goals
      cases h
      simpa using this

/-- Merges all runs. Of three, the first two are merged if the first is shorter
than the third. -/
def collapse (less : α → α → Except ε Bool) (patience : Nat) :
    List (Pending α) → Except ε (List α)
  | third :: second :: first :: rest =>
    if first.elements.length < third.elements.length then do
      let (joined, patience) ← first.absorb less patience second
      collapse less patience (third :: joined :: rest)
    else do
      let (joined, patience) ← second.absorb less patience third
      collapse less patience (joined :: first :: rest)
  | [second, first] => do
    let (joined, _) ← first.absorb less patience second
    return joined.elements
  | [run] => .ok run.elements
  | [] => .ok []
termination_by runs => runs.length

theorem perm_of_collapse {less : α → α → Except ε Bool} {patience : Nat}
    {runs : List (Pending α)} {result : List α} (h : collapse less patience runs = .ok result) :
    result.Perm (runs.flatMap Pending.elements) := by
  fun_induction collapse less patience runs with
  | case1 patience third second first more _ ih =>
    obtain ⟨⟨joined, _⟩, hj, h⟩ := ok_of_bind h
    refine .trans (ih _ _ h) ?_
    simp only [List.flatMap_cons]
    refine .append_left _ ?_
    simp only [← List.append_assoc]
    exact .append_right _ (.trans (perm_of_absorb hj) List.perm_append_comm)
  | case2 patience third second first more _ ih =>
    obtain ⟨⟨joined, _⟩, hj, h⟩ := ok_of_bind h
    refine .trans (ih _ _ h) ?_
    simp only [List.flatMap_cons, ← List.append_assoc]
    exact .append_right _ (.append_right _ (.trans (perm_of_absorb hj) List.perm_append_comm))
  | case3 patience second first =>
    obtain ⟨⟨joined, _⟩, hj, h⟩ := ok_of_bind h
    cases h
    simpa using .trans (perm_of_absorb hj) List.perm_append_comm
  | case4 => cases h; simp
  | case5 => cases h; simp

/-- Cuts what is left of a list of `n` elements into runs and merges them. -/
def sortRuns (less : α → α → Except ε Bool) (n patience : Nat) (runs : List (Pending α)) :
    List α → Except ε (List α)
  | [] => collapse less patience runs
  | a :: as => do
    let (run, k) ← nextRun less (leastRun n) a as
    let (runs, patience) ← push less n patience run runs
    sortRuns less n patience runs (as.drop k)
termination_by as => as.length

theorem perm_of_sortRuns {less : α → α → Except ε Bool} {n patience : Nat}
    {runs : List (Pending α)} {as result : List α}
    (h : sortRuns less n patience runs as = .ok result) :
    result.Perm (runs.flatMap Pending.elements ++ as) := by
  fun_induction sortRuns less n patience runs as with
  | case1 => simpa using perm_of_collapse h
  | case2 patience runs a as ih =>
    obtain ⟨⟨run, k⟩, hr, h⟩ := ok_of_bind h
    obtain ⟨⟨runs', patience'⟩, hp, h⟩ := ok_of_bind h
    refine .trans (ih _ _ _ h) (.trans ((perm_of_push hp).append_right _) ?_)
    refine .trans ((List.perm_append_comm.trans
      ((perm_of_nextRun hr).append_left _)).append_right _) (.of_eq ?_)
    simp

/-- The elements of a list in order. -/
def sort (less : α → α → Except ε Bool) (as : List α) : Except ε (List α) :=
  sortRuns less as.length Merge.worthwhile [] as

/-- The result of sorting holds the elements of the list, each as often as it does. -/
theorem perm_of_sort {less : α → α → Except ε Bool} {as result : List α}
    (h : sort less as = .ok result) : result.Perm as := by
  simpa using perm_of_sortRuns h

end Chip8.Sorting
