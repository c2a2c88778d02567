/-
Lists in run-length form: equal neighbours are one entry with a count.
-/
namespace Chip8

/-- Counted entries, in order. -/
abbrev Runs (α : Type) := List (Nat × α)

namespace Runs

/-- The runs with one more element in front. -/
def cons {α : Type} [DecidableEq α] (a : α) : Runs α → Runs α
  | [] => [(1, a)]
  | (n, b) :: rest => if a = b then (n + 1, b) :: rest else (1, a) :: (n, b) :: rest

/-- The runs of a list. -/
def ofList {α : Type} [DecidableEq α] (xs : List α) : Runs α := xs.foldr cons []

/-- The list that runs stand for. -/
def toList {α : Type} (r : Runs α) : List α := r.flatMap fun (n, a) => List.replicate n a

/-- Every run as many times as long. -/
def stretch {α : Type} (factor : Nat) (r : Runs α) : Runs α := r.map fun (n, a) => (n * factor, a)

/-- A function applied to every element. -/
def map {α β : Type} (f : α → β) (r : Runs α) : Runs β := List.map (fun (n, a) => (n, f a)) r

/-- The element at a position. -/
def get? {α : Type} : Runs α → Nat → Option α
  | [], _ => none
  | (n, a) :: rest, k => if k < n then some a else get? rest (k - n)

theorem toList_cons {α : Type} [DecidableEq α] (a : α) (r : Runs α) :
    (cons a r).toList = a :: r.toList := by
  match r with
  | [] => rfl
  | (n, b) :: rest =>
    by_cases h : a = b
    · simp [cons, toList, h, List.replicate_succ]
    · simp [cons, toList, h]

theorem toList_ofList {α : Type} [DecidableEq α] (xs : List α) : (ofList xs).toList = xs := by
  induction xs with
  | nil => rfl
  | cons a xs ih => simpa [ofList, toList_cons] using ih

theorem get?_eq {α : Type} (r : Runs α) (k : Nat) : r.get? k = r.toList[k]? := by
  induction r generalizing k with
  | nil => rfl
  | cons run rest ih =>
    obtain ⟨n, a⟩ := run
    have htoList : toList ((n, a) :: rest) = List.replicate n a ++ toList rest := rfl
    rw [get?, htoList, List.getElem?_append, List.length_replicate]
    split
    next h => rw [List.getElem?_replicate, if_pos h]
    next => exact ih (k - n)

theorem get?_ofList {α : Type} [DecidableEq α] (xs : List α) (k : Nat) :
    (ofList xs).get? k = xs[k]? := by
  rw [get?_eq, toList_ofList]

theorem get?_map {α β : Type} (f : α → β) (r : Runs α) (k : Nat) :
    (r.map f).get? k = (r.get? k).map f := by
  induction r generalizing k with
  | nil => rfl
  | cons run rest ih =>
    obtain ⟨n, a⟩ := run
    simp only [map, List.map_cons, get?]
    split
    next => rfl
    next => exact ih (k - n)

theorem get?_stretch {α : Type} {factor : Nat} (hfactor : 0 < factor) (r : Runs α) (k : Nat) :
    (r.stretch factor).get? k = r.get? (k / factor) := by
  induction r generalizing k with
  | nil => rfl
  | cons run rest ih =>
    obtain ⟨n, a⟩ := run
    have hwithin : k / factor < n ↔ k < n * factor := Nat.div_lt_iff_lt_mul hfactor
    simp only [stretch, List.map_cons, get?, hwithin]
    split
    next => rfl
    next h =>
      have hskip : k / factor - n = (k - n * factor) / factor := by
        rw [Nat.mul_comm, Nat.sub_mul_div]
      rw [hskip]
      exact ih (k - n * factor)

end Runs

end Chip8
