/-
What is removed from a text as control sequences stays within its line: in front
of the first escape character nothing is removed, and none of the sequences goes
on behind the end of a line.
-/
import Chip8.Text.ControlSequence
import Mathlib.Data.List.Basic

namespace Chip8.Text.ControlSequence

/-- What stands before the first escape character stays. -/
theorem remove_append_of_not_mem {front : List Char} (h : escape ∉ front) (cs : List Char) :
    remove (front ++ cs) = front ++ remove cs := by
  induction front with
  | nil => rfl
  | cons c front ih =>
    rw [List.mem_cons, not_or] at h
    have hc : (c == escape) = false := beq_false_of_ne (Ne.symm h.1)
    rw [List.cons_append, List.cons_append, ← ih h.2, remove, remove,
      List.splitOn_cons_eq_if_modifyHead, hc]
    cases hsplit : (front ++ cs).splitOn escape with
    | nil => exact absurd hsplit (List.splitOn_ne_nil _ _)
    | cons part parts => rfl

/-- What stands behind the last escape character is looked at on its own. -/
theorem remove_append_escape {behind : List Char} (h : escape ∉ behind) (cs : List Char) :
    remove (cs ++ escape :: behind) = remove cs ++ (rest? behind).getD (escape :: behind) := by
  rw [remove, remove, List.splitOn_append_cons_self, List.splitOn_eq_singleton h]
  cases hsplit : cs.splitOn escape with
  | nil => exact absurd hsplit (List.splitOn_ne_nil _ _)
  | cons part parts => simp

/-- A control sequence does not go on behind the end of a line. -/
theorem rest?_append_newline (behind rest : List Char) :
    rest? (behind ++ '\n' :: rest) = (rest? behind).map (· ++ '\n' :: rest) := by
  match behind with
  | [] => rfl
  | c :: cs =>
    by_cases hc : c = '['
    · subst hc
      simp only [rest?, List.cons_append, List.dropWhile_append]
      cases hparameters : cs.dropWhile isParameter with
      | nil => rfl
      | cons letter cs =>
        simp only [List.isEmpty_cons, Bool.false_eq_true, if_false, List.cons_append]
        split <;> rfl
    · simp [rest?, hc]

theorem remove_append_newline {rest : List Char} (hrest : escape ∉ rest) (cs : List Char) :
    remove (cs ++ '\n' :: rest) = remove cs ++ '\n' :: rest := by
  have hline : escape ∉ '\n' :: rest := List.not_mem_cons_of_ne_of_not_mem (by decide) hrest
  by_cases h : escape ∈ cs
  · -- only what stands behind the last escape character meets the end of the line
    obtain ⟨back, front, hback, hnot⟩ := List.eq_append_cons_of_mem (List.mem_reverse.2 h)
    have hcs : cs = front.reverse ++ escape :: back.reverse := by
      rw [← List.reverse_reverse cs, hback]
      simp
    have hnot : escape ∉ back.reverse := by simpa using hnot
    have hbehind : escape ∉ back.reverse ++ '\n' :: rest := by
      rw [List.mem_append, not_or]
      exact ⟨hnot, hline⟩
    rw [hcs, List.append_assoc, List.cons_append, remove_append_escape hbehind,
      remove_append_escape hnot, rest?_append_newline, List.append_assoc]
    cases rest? back.reverse <;> rfl
  · have hall : escape ∉ cs ++ '\n' :: rest := by
      rw [List.mem_append, not_or]
      exact ⟨h, hline⟩
    rw [remove_of_not_mem hall, remove_of_not_mem h]

end Chip8.Text.ControlSequence
