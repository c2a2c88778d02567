/-
The screen pixel by pixel: what is lit on a blank screen, after one pixel is
set and after a sprite is drawn, which sprites collide, and all pixels in order.
-/
import Chip8.Screen

namespace Chip8.Screen

variable {s : Screen} {px py : Nat}

theorem lit_eq (s : Screen) (hy : py < 32) : s.lit px py = s.rows[py].getMsbD px := by
  simp [lit, hy]

/-- A screen is its pixels. -/
theorem eq_of_lit {t : Screen} (h : ∀ px < 64, ∀ py < 32, s.lit px py = t.lit px py) : s = t := by
  refine congrArg Screen.mk (Vector.ext fun py hpy => BitVec.eq_of_getMsbD_eq fun px hpx => ?_)
  rw [← lit_eq s hpy, ← lit_eq t hpy]
  exact h px hpx py hpy

@[simp] theorem lit_blank : blank.lit px py = false := by
  by_cases hy : py < 32
  · rw [lit_eq _ hy]
    simp [blank]
  · simp [lit, hy]

theorem contains_iff {x y : Int} : contains x y = true ↔ (0 ≤ x ∧ x < 64) ∧ 0 ≤ y ∧ y < 32 := by
  have hw : ((width : Nat) : Int) = 64 := rfl
  have hh : ((height : Nat) : Int) = 32 := rfl
  simp [contains, hw, hh, and_assoc, decide_eq_true_eq]

theorem getMsbD_dot {x : Nat} (hpx : px < 64) : (dot x).getMsbD px = decide (px = x) := by
  simp only [dot, BitVec.getMsbD_ushiftRight, BitVec.getMsbD_twoPow]
  grind

/-- Setting a pixel changes that one only. -/
theorem lit_of_setPixel {x y : Int} {on : Bool} {t : Screen} (h : s.setPixel x y on = .ok t)
    (hpx : px < 64) (hpy : py < 32) :
    t.lit px py = if px = x.toNat ∧ py = y.toNat then on else s.lit px py := by
  unfold setPixel at h
  split at h
  next =>
    cases h
    rw [lit_eq _ hpy, lit_eq _ hpy, Vector.getElem_mapFinIdx]
    by_cases hy : py = y.toNat
    · cases on <;> simp [hy, getMsbD_dot hpx, hpx] <;> grind
    · simp [hy]
  next => cases h

/-! ## Sprites -/

theorem startColumn_cast (x : Int) : (startColumn x : Int) = x % 64 :=
  Int.toNat_of_nonneg (Int.emod_nonneg x (by decide))

theorem startRow_cast (y : Int) : (startRow y : Int) = y % 32 :=
  Int.toNat_of_nonneg (Int.emod_nonneg y (by decide))

/-- Whether a sprite that starts at a column and a row has a set bit over a pixel. -/
def covers (column row : Nat) (sprite : List Byte) (px py : Nat) : Bool :=
  decide (column ≤ px ∧ row ≤ py) && (sprite[py - row]?.getD 0).getMsbD (px - column)

theorem getMsbD_mask {column row : Nat} {sprite : List Byte} (hpx : px < 64) :
    (mask column row sprite py).getMsbD px = covers column row sprite px py := by
  by_cases hrow : row ≤ py
  · have hlt : ¬ py < row := by omega
    cases hb : sprite[py - row]? with
    | none => simp [mask, covers, hb, hrow]
    | some b =>
      have hedge : ∀ k, 8 ≤ k → b.getMsbD k = false := fun k hk => BitVec.getMsbD_of_ge b k hk
      simp only [mask, covers, hb, hlt, hrow, placed, if_false, Option.getD_some, and_true,
        BitVec.getMsbD_ushiftRight, BitVec.getMsbD_append, hpx]
      grind
  · simp [mask, covers, hrow, Nat.lt_of_not_le hrow]

/-- Drawing turns over the pixels under the sprite. -/
theorem lit_draw {x y : Int} {sprite : List Byte} (hpx : px < 64) (hpy : py < 32) :
    (s.draw x y sprite).lit px py =
      (s.lit px py ^^ covers (startColumn x) (startRow y) sprite px py) := by
  rw [lit_eq _ hpy, lit_eq _ hpy, draw, Vector.getElem_mapFinIdx, BitVec.getMsbD_xor,
    getMsbD_mask hpx]

/-- Two rows of pixels share a lit one unless their conjunction is zero. -/
theorem and_ne_zero_iff {a b : BitVec 64} : a &&& b ≠ 0 ↔
    ∃ px < 64, a.getMsbD px = true ∧ b.getMsbD px = true := by
  constructor
  · refine fun h => Classical.byContradiction fun hnone => h (BitVec.eq_of_getMsbD_eq fun px hpx => ?_)
    have : ¬ (a.getMsbD px = true ∧ b.getMsbD px = true) := fun hab => hnone ⟨px, hpx, hab⟩
    simpa using this
  · rintro ⟨px, -, ha, hb⟩ h
    have : (a &&& b).getMsbD px = true := by simp [ha, hb]
    simp [h] at this

/-- A sprite collides if it lies over a lit pixel. -/
theorem collides_iff {x y : Int} {sprite : List Byte} : s.collides x y sprite = true ↔
    ∃ px < 64, ∃ py < 32, s.lit px py = true ∧
      covers (startColumn x) (startRow y) sprite px py = true := by
  simp only [collides, List.any_eq_true, List.mem_finRange, true_and, decide_eq_true_eq,
    and_ne_zero_iff]
  constructor
  · rintro ⟨k, px, hpx, hlit, hmask⟩
    refine ⟨px, hpx, k, k.isLt, ?_, ?_⟩
    · rwa [lit_eq _ k.isLt]
    · rwa [← getMsbD_mask hpx]
  · rintro ⟨px, hpx, py, hpy, hlit, hcov⟩
    refine ⟨⟨py, hpy⟩, px, hpx, ?_, ?_⟩
    · rwa [lit_eq _ hpy] at hlit
    · rwa [getMsbD_mask hpx]

/-! ## All pixels in order -/

/-- Rows of equal width, one after another. -/
theorem flatten_rows {α : Type} (f : Nat → Nat → α) (w h : Nat) (hw : 0 < w) :
    ((List.range h).map fun y => (List.range w).map fun x => f x y).flatten =
      (List.range (h * w)).map fun k => f (k % w) (k / w) := by
  induction h with
  | zero => simp
  | succ h ih =>
    have hrow : ∀ x ∈ List.range w, f x h = f ((h * w + x) % w) ((h * w + x) / w) := by
      intro x hx
      have hx : x < w := by simpa using hx
      rw [Nat.mul_comm, Nat.mul_add_mod, Nat.mod_eq_of_lt hx, Nat.mul_add_div hw,
        Nat.div_eq_of_lt hx, Nat.add_zero]
    rw [List.range_succ, List.map_append, List.flatten_append, ih, Nat.succ_mul, List.range_add,
      List.map_append, List.map_map]
    simp [List.map_congr_left hrow]

theorem flatten_pixelRows (s : Screen) :
    s.pixelRows.flatten = (List.range 2048).map fun k => s.lit (k % 64) (k / 64) :=
  flatten_rows s.lit 64 32 (by omega)

theorem textRows_eq (s : Screen) (on off : String) : s.textRows on off =
    (List.range height).map fun y =>
      String.join ((List.range width).map fun x => if s.lit x y then on else off) := by
  simp only [textRows, pixelRows, pixelRow, List.map_map, Function.comp_def]

end Chip8.Screen
