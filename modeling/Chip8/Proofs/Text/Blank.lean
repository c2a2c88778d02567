/-
What stripping leaves. Blanks put around a text are taken off again, and a
character that is not blank stays.
-/
import Chip8.Text.Blank
import Mathlib.Data.List.TakeWhile

namespace Chip8.Text

variable {test : Char → Bool} {cs before later : List Char} {c : Char}

theorem mem_of_mem_dropWhile (h : c ∈ cs.dropWhile test) : c ∈ cs :=
  (List.dropWhile_suffix test).subset h

theorem mem_dropWhile (h : c ∈ cs) (hc : test c = false) : c ∈ cs.dropWhile test := by
  rw [← List.takeWhile_append_dropWhile (p := test) (l := cs), List.mem_append] at h
  refine h.resolve_left fun htaken => ?_
  rw [List.mem_takeWhile_imp htaken] at hc
  cases hc

theorem mem_of_mem_trimBoth (h : c ∈ trimBoth test cs) : c ∈ cs := by
  rw [trimBoth, List.mem_reverse] at h
  exact mem_of_mem_dropWhile (List.mem_reverse.1 (mem_of_mem_dropWhile h))

theorem mem_trimBoth (h : c ∈ cs) (hc : test c = false) : c ∈ trimBoth test cs := by
  rw [trimBoth, List.mem_reverse]
  exact mem_dropWhile (List.mem_reverse.2 (mem_dropWhile h hc)) hc

theorem trimBoth_append (hbefore : ∀ c ∈ before, test c = true) (hlater : ∀ c ∈ later, test c = true) :
    trimBoth test (before ++ cs ++ later) = trimBoth test cs := by
  have hend : ∀ c ∈ later.reverse, test c = true := fun c hc => hlater c (List.mem_reverse.1 hc)
  rw [trimBoth, List.append_assoc, List.dropWhile_append_of_pos hbefore, List.dropWhile_append]
  split
  next hnone =>
    have hall : later.dropWhile test = [] := List.dropWhile_eq_nil_iff.2 hlater
    rw [hall, trimBoth, List.isEmpty_iff.1 hnone]
  next => rw [List.reverse_append, List.dropWhile_append_of_pos hend, trimBoth]

end Chip8.Text
