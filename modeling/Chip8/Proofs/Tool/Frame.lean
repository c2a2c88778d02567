/-
A frame and the screen in it. The rows of the screen stand between two lines of the
border, each between two bars, and no row holds the end of a line. So they can be
read back, and a frame shows one screen only.
-/
import Chip8.Proofs.Picture
import Chip8.Tool.Session

namespace Chip8

namespace Screen

variable {s t : Screen}

/-- Rows of text have the pixels in them. -/
theorem eq_of_textRows {on off : String} (hne : on ≠ off) (hwidth : on.length = off.length)
    (h : s.textRows on off = t.textRows on off) : s = t :=
  eq_of_text hne hwidth (congrArg (String.intercalate "\n") h)

theorem newline_not_mem_textRows {row : String} (h : row ∈ s.textRows "#" " ") :
    '\n' ∉ row.toList := by
  intro hmem
  rw [textRows_eq] at h
  obtain ⟨y, -, rfl⟩ := List.mem_map.1 h
  rw [String.toList_join, List.mem_flatMap] at hmem
  obtain ⟨cell, hcell, hc⟩ := hmem
  obtain ⟨x, -, rfl⟩ := List.mem_map.1 hcell
  cases hlit : s.lit x y <;> simp [hlit] at hc

end Screen

namespace Tool.Session

variable {s t : Screen}

/-! ## Lines -/

/-- The first and the last line of a frame. -/
def borderLine : List Char := '+' :: (List.replicate 64 '-' ++ ['+'])

theorem toList_frame (s : Screen) : (frame s).toList = ['\n'].intercalate
    (borderLine :: (s.textRows "#" " ").map (fun row => '|' :: (row.toList ++ ['|'])) ++
      [borderLine]) := by
  have hborder :
      ("+" ++ String.ofList (List.replicate Screen.width '-') ++ "+").toList = borderLine := by
    rw [String.toList_append, String.toList_append, String.toList_ofList]
    rfl
  have hrow : ∀ row : String, ("|" ++ row ++ "|").toList = '|' :: (row.toList ++ ['|']) := by
    intro row
    rw [String.toList_append, String.toList_append, List.append_assoc]
    rfl
  rw [frame, String.toList_intercalate, List.map_append, List.map_cons, List.map_map]
  simp only [Function.comp_def, hborder, hrow]
  rfl

theorem splitOn_frame (s : Screen) : (frame s).toList.splitOn '\n' =
    borderLine :: (s.textRows "#" " ").map (fun row => '|' :: (row.toList ++ ['|'])) ++
      [borderLine] := by
  have hborder : '\n' ∉ borderLine := by decide
  rw [toList_frame]
  refine List.splitOn_intercalate '\n' (fun line hline => ?_) (by simp)
  rw [List.cons_append, List.mem_cons, List.mem_append, List.mem_map, List.mem_singleton] at hline
  rcases hline with rfl | ⟨row, hrow, rfl⟩ | rfl
  · exact hborder
  · simp [Screen.newline_not_mem_textRows hrow]
  · exact hborder

/-! ## Screens -/

/-- What stands inside of the border of a frame, line by line. -/
def inside (text : String) : List String :=
  (text.toList.splitOn '\n').tail.dropLast.map fun line => String.ofList line.tail.dropLast

/-- The lines inside of a frame are the rows of its screen. -/
theorem inside_frame (s : Screen) : inside (frame s) = s.textRows "#" " " := by
  have hrow : ∀ row : String,
      String.ofList ('|' :: (row.toList ++ ['|'])).tail.dropLast = row := by
    intro row
    rw [List.tail_cons, List.dropLast_concat, String.ofList_toList]
  rw [inside, splitOn_frame, List.cons_append, List.tail_cons, List.dropLast_concat, List.map_map]
  exact (List.map_congr_left fun row _ => hrow row).trans (List.map_id _)

/-- A frame shows one screen only. -/
theorem inside_frame_eq_iff : inside (frame s) = t.textRows "#" " " ↔ t = s := by
  rw [inside_frame]
  constructor
  · intro h
    exact Screen.eq_of_textRows (by decide) (by decide) h.symm
  · rintro rfl
    rfl

theorem frame_inj : frame s = frame t ↔ s = t := by
  constructor
  · intro h
    rw [← inside_frame_eq_iff, ← inside_frame, h]
  · rintro rfl
    rfl

end Tool.Session
end Chip8
