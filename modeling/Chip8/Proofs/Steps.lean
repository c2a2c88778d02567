/-
Step after step, one for each key reference of a list, whether they succeed or
fail: the machine at the end and what the steps answered. A run, in contrast,
goes on with one key reference and stays as it is once it is over.

`along` collects what a function of single steps gives at each of them.
-/
import Chip8.Machine.Step

namespace Chip8

namespace Machine

/-- The machine after a step for each reference. -/
def after (m : Machine) : List (Option Key.Reference) → Machine
  | [] => m
  | press :: presses => (m.step press).2.after presses

/-- What the steps for each reference answer. -/
def results (m : Machine) : List (Option Key.Reference) → List (Except Failure Executed)
  | [] => []
  | press :: presses => (m.step press).1 :: (m.step press).2.results presses

@[simp] theorem after_nil (m : Machine) : m.after [] = m := rfl

@[simp] theorem after_cons (m : Machine) (press : Option Key.Reference) (presses) :
    m.after (press :: presses) = (m.step press).2.after presses := rfl

theorem after_append (m : Machine) (ps qs : List (Option Key.Reference)) :
    m.after (ps ++ qs) = (m.after ps).after qs := by
  induction ps generalizing m with
  | nil => rfl
  | cons p ps ih => simp [ih]

theorem after_concat (m : Machine) (ps : List (Option Key.Reference)) (p : Option Key.Reference) :
    m.after (ps ++ [p]) = ((m.after ps).step p).2 := by
  rw [after_append, after_cons, after_nil]

theorem results_append (m : Machine) (ps qs : List (Option Key.Reference)) :
    m.results (ps ++ qs) = m.results ps ++ (m.after ps).results qs := by
  induction ps generalizing m with
  | nil => rfl
  | cons p ps ih => simp [results, ih]

/-! ## All that the steps do -/

section Along

variable {α β : Type} {f : Machine → Option Key.Reference → List α} {m : Machine}
  {presses : List (Option Key.Reference)}

/-- What a function gives at every step, from the machine before it and the key
reference given to it. -/
def along (f : Machine → Option Key.Reference → List α) (m : Machine) :
    List (Option Key.Reference) → List α
  | [] => []
  | press :: presses => f m press ++ (m.step press).2.along f presses

theorem mem_along {a : α} : a ∈ m.along f presses ↔
    ∃ before press later, presses = before ++ press :: later ∧ a ∈ f (m.after before) press := by
  induction presses generalizing m with
  | nil => simp [along]
  | cons p ps ih =>
    rw [along, List.mem_append, ih]
    constructor
    · rintro (h | ⟨before, press, later, rfl, h⟩)
      · exact ⟨[], p, ps, rfl, h⟩
      · exact ⟨p :: before, press, later, rfl, h⟩
    · rintro ⟨before, press, later, heq, h⟩
      cases before with
      | nil =>
        cases heq
        exact .inl h
      | cons q before =>
        cases heq
        exact .inr ⟨before, press, later, rfl, h⟩

/-- What each step keeps, unless it is one of a kind, all of them keep. -/
theorem after_keeps (part : Machine → β) {a : α}
    (hstep : ∀ m press, a ∉ f m press → part (m.step press).2 = part m)
    (h : a ∉ m.along f presses) : part (m.after presses) = part m := by
  induction presses generalizing m with
  | nil => rfl
  | cons p ps ih =>
    rw [along, List.mem_append, not_or] at h
    rw [after_cons, ih h.2, hstep m p h.1]

end Along

end Machine

/-- A run that is over takes no more steps. -/
theorem Run.proceed_of_isOver {r : Run} (h : r.isOver = true) (press : Option Key.Reference)
    (limit : Nat) : r.proceed press limit = r := by
  cases limit with
  | zero => rfl
  | succ limit => rw [proceed, if_pos h]

end Chip8
