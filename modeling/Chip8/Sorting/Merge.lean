/-
Merging two runs that follow each other, with few comparisons where long
stretches of one go before the other.

What is in place already is left alone. The rest is merged from the end at
which the shorter run stands. Elements are taken one at a time until one run
has won often enough, then in leaps, as many as go before the other run's next
element. How often is often enough changes with how well the leaps pay.

The last element of the shorter run is not compared any more: it comes after
all that is left of the other.
-/
import Chip8.Sorting.Search

namespace Chip8.Sorting

variable {α ε : Type}

/-- The end from which two runs are merged. -/
inductive End
  | front
  | back
deriving DecidableEq, Repr

/-- One of two runs. -/
inductive Side
  | short
  | long
deriving DecidableEq, Repr

/-- The other run. -/
def Side.other : Side → Side
  | short => long
  | long => short

namespace End

/-- Whether an element goes before another as seen from an end. -/
def before (e : End) (less : α → α → Except ε Bool) (a b : α) : Except ε Bool :=
  match e with
  | front => less a b
  | back => less b a

/-- The middle at which a search from an end halves. -/
def middle : End → Middle
  | front => .upper
  | back => .lower

/-- The side that is tried first when leaping. -/
def leader : End → Side
  | front => .short
  | back => .long

/-- A list as seen from an end. -/
def view (e : End) (as : List α) : List α :=
  match e with
  | front => as
  | back => as.reverse

theorem perm_view (e : End) (as : List α) : (e.view as).Perm as := by
  cases e
  · exact .refl _
  · exact List.reverse_perm _

end End

/-- Two runs on the way to be merged, as seen from an end, and what has been
taken from them, the newest first. -/
structure Merge (α : Type) where
  taken : List α := []
  short : List α
  long : List α

namespace Merge

/-- How many elements are left. -/
def size (m : Merge α) : Nat := m.short.length + m.long.length

/-- Whether nothing is left to compare. -/
def isOver (m : Merge α) : Bool :=
  match m.short, m.long with
  | _ :: _ :: _, _ :: _ => false
  | _, _ => true

/-- All elements, those left of the shorter run being the last. -/
def elements (m : Merge α) : List α := m.taken.reverse ++ m.long ++ m.short

/-- Takes elements from the start of a side. -/
def take (m : Merge α) : Side → Nat → Merge α
  | .short, k => { m with taken := (m.short.take k).reverse ++ m.taken, short := m.short.drop k }
  | .long, k => { m with taken := (m.long.take k).reverse ++ m.taken, long := m.long.drop k }

/-- Takes elements from a side and then, unless all is over, one from the other. -/
def leap (m : Merge α) (s : Side) (k : Nat) : Merge α :=
  if (m.take s k).isOver then m.take s k else (m.take s k).take s.other 1

theorem perm_take (m : Merge α) (s : Side) (k : Nat) : (m.take s k).elements.Perm m.elements := by
  cases s
  · simp only [take, elements, List.reverse_append, List.reverse_reverse, List.append_assoc]
    refine .append_left _ (.trans (List.perm_append_comm_assoc ..) (.append_left _ ?_))
    simp
  · simp [take, elements]

theorem perm_leap (m : Merge α) (s : Side) (k : Nat) : (m.leap s k).elements.Perm m.elements := by
  unfold leap
  split
  · exact m.perm_take s k
  · exact .trans ((m.take s k).perm_take s.other 1) (m.perm_take s k)

theorem size_take_le (m : Merge α) (s : Side) (k : Nat) : (m.take s k).size ≤ m.size := by
  cases s <;> simp only [take, size, List.length_drop] <;> omega

theorem size_take_one_lt {m : Merge α} (h : m.isOver = false) (s : Side) :
    (m.take s 1).size < m.size := by
  unfold isOver at h
  split at h
  · next hs hl => cases s <;> simp [take, size, hs, hl]
  · simp at h

theorem size_leap_lt {m : Merge α} {s : Side} {k : Nat} (h : (m.leap s k).isOver = false) :
    (m.leap s k).size < m.size := by
  unfold leap at h ⊢
  split at h
  · next ended => simp [ended] at h
  · next going =>
    have := size_take_one_lt (by simpa using going) s.other
    have := m.size_take_le s k
    simp only [going, Bool.false_eq_true, if_false]
    omega

/-! ## Comparing -/

/-- The side that the next element is taken from. -/
def next (m : Merge α) (e : End) (less : α → α → Except ε Bool) : Except ε Side :=
  match m.short, m.long with
  | a :: _, b :: _ => do return if ← e.before less b a then .long else .short
  | _, _ => .ok .long

/-- How many elements of a side go before the first of the other. -/
def ahead (m : Merge α) (e : End) (less : α → α → Except ε Bool) : Side → Except ε Nat
  | .short =>
    match m.long with
    | [] => .ok m.short.length
    | b :: _ => lead (fun a => (!·) <$> e.before less b a) e.middle m.short
  | .long =>
    match m.short with
    | [] => .ok m.long.length
    | a :: _ => lead (fun b => e.before less b a) e.middle m.long

/-! ## Going on -/

/-- How elements are taken: one at a time, a side having won some times
running, or in leaps. -/
inductive Gait
  | steps (winner : Side) (wins : Nat)
  | leaps
deriving DecidableEq, Repr

/-- How many elements a leap has to gain for another one to follow. -/
def worthwhile : Nat := 7

/-- Merges until all is over. A side that wins `patience` times running makes
it go on in leaps; each leap that is followed by another takes some patience
away, and the end of the leaps gives some back. -/
def proceed (e : End) (less : α → α → Except ε Bool) (patience : Nat) (gait : Gait)
    (m : Merge α) : Except ε (Merge α × Nat) :=
  if m.isOver then .ok (m, patience)
  else
    match gait with
    | .steps winner wins => do
      let side ← m.next e less
      let wins := if side = winner then wins + 1 else 1
      proceed e less patience (if patience ≤ wins then .leaps else .steps side wins) (m.take side 1)
    | .leaps => do
      let k ← m.ahead e less e.leader
      let first := m.leap e.leader k
      if first.isOver then return (first, patience)
      let l ← first.ahead e less e.leader.other
      let second := first.leap e.leader.other l
      if second.isOver then return (second, patience)
      if worthwhile ≤ k ∨ worthwhile ≤ l then
        proceed e less (max 1 (patience - 1)) .leaps second
      else proceed e less (patience + 1) (.steps .long 0) second
termination_by m.size
decreasing_by
  · exact size_take_one_lt (by simpa using ‹¬m.isOver = true›) side
  all_goals
    exact Nat.lt_trans (size_leap_lt (by simpa using ‹¬second.isOver = true›))
      (size_leap_lt (by simpa using ‹¬first.isOver = true›))

theorem perm_of_proceed {e : End} {less : α → α → Except ε Bool} {patience rest : Nat} {gait : Gait}
    {m result : Merge α} (h : proceed e less patience gait m = .ok (result, rest)) :
    result.elements.Perm m.elements := by
  fun_induction proceed e less patience gait m with
  | case1 => cases h; exact .refl _
  | case2 patience m _ winner wins ih =>
    obtain ⟨side, _, h⟩ := ok_of_bind h
    exact .trans (ih side (by simpa using h)) (m.perm_take side 1)
  | case3 patience m _ slower faster =>
    obtain ⟨k, _, h⟩ := ok_of_bind h
    have first := m.perm_leap e.leader k
    dsimp only at h
    split at h
    · cases h; exact first
    · next going =>
      obtain ⟨l, _, h⟩ := ok_of_bind h
      have second := ((m.leap e.leader k).perm_leap e.leader.other l).trans first
      split at h
      · cases h; exact second
      · next going' =>
        split at h
        · exact .trans (slower k going l going' h) second
        · exact .trans (faster k going l going' h) second

/-- All elements of two runs, merged from an end, and the patience that is left. -/
def run (e : End) (less : α → α → Except ε Bool) (patience : Nat) (short long : List α) :
    Except ε (List α × Nat) := do
  let start : Merge α := { short := e.view short, long := e.view long }
  let (m, patience) ← proceed e less patience (.steps .long 0) (start.take .long 1)
  return (e.view m.elements, patience)

theorem perm_of_run {e : End} {less : α → α → Except ε Bool} {patience rest : Nat}
    {short long result : List α} (h : run e less patience short long = .ok (result, rest)) :
    result.Perm (long ++ short) := by
  obtain ⟨⟨m, _⟩, hm, h⟩ := ok_of_bind h
  cases h
  refine .trans (e.perm_view _) (.trans (perm_of_proceed hm) (.trans (perm_take _ _ 1) ?_))
  exact (e.perm_view long).append (e.perm_view short)

end Merge

/-- Merges two runs that follow each other, and says how much patience is left. -/
def merge (less : α → α → Except ε Bool) (patience : Nat) (as bs : List α) :
    Except ε (List α × Nat) :=
  match bs with
  | [] => .ok (as, patience)
  | b :: _ => do
    let k ← lead (fun a => (!·) <$> less b a) .upper as
    let high := as.drop k
    match high.getLast? with
    | none => return (as ++ bs, patience)
    | some a =>
      let l ← lead (fun b => (!·) <$> less b a) .lower bs.reverse
      let low := bs.take (bs.length - l)
      let (merged, patience) ←
        if high.length ≤ low.length then Merge.run .front less patience high low
        else Merge.run .back less patience low high
      return (as.take k ++ merged ++ bs.drop (bs.length - l), patience)

theorem perm_of_merge {less : α → α → Except ε Bool} {patience rest : Nat}
    {as bs result : List α} (h : merge less patience as bs = .ok (result, rest)) :
    result.Perm (as ++ bs) := by
  unfold merge at h
  split at h
  · cases h; simp
  · next b bs' =>
    obtain ⟨k, _, h⟩ := ok_of_bind h
    dsimp only at h
    split at h
    · cases h; exact .refl _
    · next a _ =>
      obtain ⟨l, _, h⟩ := ok_of_bind h
      have merged {run : List α} (hr : run.Perm
          (as.drop k ++ (b :: bs').take ((b :: bs').length - l))) :
          (as.take k ++ run ++ (b :: bs').drop ((b :: bs').length - l)).Perm (as ++ b :: bs') := by
        have := (hr.append_left (as.take k)).append_right
          ((b :: bs').drop ((b :: bs').length - l))
        rwa [← List.append_assoc, List.take_append_drop, List.append_assoc as,
          List.take_append_drop] at this
      split at h
      all_goals
        obtain ⟨⟨run, _⟩, hr, h⟩ := ok_of_bind h
        cases h
      · exact merged (.trans (Merge.perm_of_run hr) List.perm_append_comm)
      · exact merged (Merge.perm_of_run hr)

end Chip8.Sorting
