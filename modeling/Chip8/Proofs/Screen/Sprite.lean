/-
A sprite as rows of integers. What it sets of a pixel is read off one bit of
one row: its start is taken modulo the size of the screen, and from there it
lies to the right and downwards, with nothing around an edge. Drawing is the
exclusive or with that, and a collision is a pixel both lit and set.
-/
import Chip8.Proofs.Plain.Drawing

namespace Chip8.Screen

/-- Whether a sprite at a position sets a pixel: the one at a column and a row
counted from the sprite's start, the leftmost column being bit 7. -/
def sets (x y : Int) (rows : List Int) (px py : Nat) : Bool :=
  let column := (px : Int) - x % 64
  let row := (py : Int) - y % 32
  decide ((0 ≤ column ∧ column < 8) ∧ 0 ≤ row ∧ row < rows.length) &&
    (rows.getD row.toNat 0).testBit (7 - column).toNat

/-- The bits of the rows are those of their bytes. -/
theorem covers_eq_sets (x y : Int) (rows : List Int) (px py : Nat) :
    covers (startColumn x) (startRow y) (rows.map (BitVec.ofInt 8)) px py =
      sets x y rows px py := by
  have hx := startColumn_cast x
  have hy := startRow_cast y
  generalize startColumn x = column at hx
  generalize startRow y = row at hy
  rw [covers, sets, ← hx, ← hy]
  by_cases hstart : column ≤ px ∧ row ≤ py
  · obtain ⟨⟨c, rfl⟩, r, rfl⟩ := hstart.imp Nat.exists_eq_add_of_le Nat.exists_eq_add_of_le
    have hcolumn : ((column + c : Nat) : Int) - column = (c : Int) := by omega
    have hrow : ((row + r : Nat) : Int) - row = (r : Int) := by omega
    rw [hcolumn, hrow, Nat.add_sub_cancel_left, Nat.add_sub_cancel_left, decide_eq_true hstart,
      Bool.true_and, Int.toNat_natCast]
    by_cases hspan : c < 8 ∧ r < rows.length
    · obtain ⟨hc, hr⟩ := hspan
      have hinside : ((0 : Int) ≤ c ∧ (c : Int) < 8) ∧ (0 : Int) ≤ r ∧ (r : Int) < rows.length := by
        omega
      have hbit : (7 - (c : Int)).toNat = 7 - c := by omega
      rw [decide_eq_true hinside, Bool.true_and, hbit, Plain.testBit_eq_getMsbD _ hc]
      simp [hr]
    · -- beyond the eight columns or below the last row there is no bit
      have hbeyond :
          ¬ (((0 : Int) ≤ c ∧ (c : Int) < 8) ∧ (0 : Int) ≤ r ∧ (r : Int) < rows.length) := by
        omega
      rw [decide_eq_false hbeyond, Bool.false_and]
      by_cases hc : c < 8
      · have hr : rows.length ≤ r := by omega
        simp [List.getElem?_eq_none hr]
      · exact BitVec.getMsbD_of_ge _ c (by omega)
  · have hbefore : ¬ (((0 : Int) ≤ px - column ∧ (px : Int) - column < 8) ∧
        0 ≤ (py : Int) - row ∧ (py : Int) - row < rows.length) := by omega
    rw [decide_eq_false hstart, decide_eq_false hbefore, Bool.false_and, Bool.false_and]

/-- **Drawing is a clipped exclusive or.** Wherever a sprite is drawn and
whatever integers its rows are, the loops over rows and columns, broken off at
both edges, leave the pixels of the drawn screen and tell whether it collided.
Each pixel is the one before, turned over if the sprite sets it, and it collides
if it sets a pixel that was lit. -/
theorem draw_isClippedXor (s : Screen) (x y : Int) (rows : List Int) :
    let sprite := rows.map (BitVec.ofInt 8)
    let drawn := s.draw x y sprite
    let hit := s.collides x y sprite
    Plain.drawRows (x % 64) (y % 32) rows (s.pixelRows.flatten, false) =
      some (drawn.pixelRows.flatten, hit) ∧
    drawn.pixelRows.flatten.length = 2048 ∧
    (∀ px < 64, ∀ py < 32, drawn.lit px py = (s.lit px py ^^ sets x y rows px py)) ∧
    (hit = true ↔ ∃ px < 64, ∃ py < 32, sets x y rows px py = true ∧ s.lit px py = true) := by
  refine ⟨Plain.drawRows_flatten s x y rows, ?_, fun px hpx py hpy => ?_, ?_⟩
  · rw [flatten_pixelRows, List.length_map, List.length_range]
  · rw [lit_draw hpx hpy, covers_eq_sets]
  · simp only [collides_iff, covers_eq_sets, and_comm]

end Chip8.Screen
