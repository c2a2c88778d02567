/-
Drawing pixel by pixel into a list of flags is drawing row by row into bit
vectors. The loops over columns and rows each turn over one set of pixels
after another (`paint`); the sets are disjoint, so a whole loop turns over
their union (`paint_paint`), and the union is what the sprite covers.
-/
import Chip8.Proofs.Plain.Parts

namespace Chip8
namespace Plain

/-! ## Canvases -/

/-- The pixels of a screen, row by row, from a picture of column and row. -/
def canvas (f : Nat → Nat → Bool) : List Bool :=
  (List.range 2048).map fun k => f (k % 64) (k / 64)

section Canvas

variable {f g : Nat → Nat → Bool} {px py : Nat}

theorem canvas_congr (h : ∀ px < 64, ∀ py < 32, f px py = g px py) : canvas f = canvas g := by
  refine List.map_congr_left fun k hk => h _ (Nat.mod_lt k (by omega)) _ ?_
  have : k < 2048 := List.mem_range.1 hk
  omega

theorem at?_canvas (f : Nat → Nat → Bool) (hpx : px < 64) (hpy : py < 32) :
    at? (canvas f) ((py : Int) * 64 + px) = some (f px py) := by
  have hk : ((py : Int) * 64 + px) = ((py * 64 + px : Nat) : Int) := by push_cast; rfl
  have hmod : (py * 64 + px) % 64 = px := by omega
  have hdiv : (py * 64 + px) / 64 = py := by omega
  have hlt : py * 64 + px < 2048 := by omega
  rw [hk, at?_natCast, canvas, List.getElem?_map, List.getElem?_range hlt, Option.map_some, hmod, hdiv]

theorem put?_canvas (f : Nat → Nat → Bool) (hpx : px < 64) (hpy : py < 32) (b : Bool) :
    put? (canvas f) ((py : Int) * 64 + px) b =
      some (canvas fun x y => if x = px ∧ y = py then b else f x y) := by
  have hk : ((py : Int) * 64 + px) = ((py * 64 + px : Nat) : Int) := by push_cast; rfl
  have hlt : py * 64 + px < (canvas f).length := by simp [canvas]; omega
  rw [hk, put?_natCast hlt]
  refine congrArg some (List.ext_getElem (by simp [canvas]) fun k h h' => ?_)
  have hiff : k % 64 = px ∧ k / 64 = py ↔ py * 64 + px = k := by omega
  simp [canvas, List.getElem_set, hiff]

end Canvas

/-! ## Painting -/

/-- A picture and a mark of a collision. -/
abbrev Picture := (Nat → Nat → Bool) × Bool

/-- Turns over a set of pixels and marks a collision if one of them was lit. -/
def paint (cover : Nat → Nat → Bool) (s : Picture) : Picture :=
  (fun px py => s.1 px py ^^ cover px py,
    s.2 || (List.range 64).any fun px => (List.range 32).any fun py => s.1 px py && cover px py)

theorem paint_snd {cover : Nat → Nat → Bool} {s : Picture} : (paint cover s).2 = true ↔
    s.2 = true ∨ ∃ px < 64, ∃ py < 32, s.1 px py = true ∧ cover px py = true := by
  simp [paint]

@[simp] theorem paint_nothing (s : Picture) : paint (fun _ _ => false) s = s := by
  refine Prod.ext (funext fun px => funext fun py => ?_) (Bool.eq_iff_iff.2 ?_)
  · simp [paint]
  · simp [paint_snd]

theorem paint_pixel {x y : Nat} (hx : x < 64) (hy : y < 32) (s : Picture) :
    paint (fun px py => decide (px = x ∧ py = y)) s =
      (fun px py => if px = x ∧ py = y then !s.1 x y else s.1 px py, s.2 || s.1 x y) := by
  refine Prod.ext (funext fun px => funext fun py => ?_) (Bool.eq_iff_iff.2 ?_)
  · simp only [paint]
    grind
  · rw [paint_snd, Bool.or_eq_true]
    simp only [decide_eq_true_eq]
    grind

/-- Two disjoint sets one after the other are their union. -/
theorem paint_paint {a b : Nat → Nat → Bool} (h : ∀ px py, a px py = true → b px py = false)
    (s : Picture) : paint b (paint a s) = paint (fun px py => a px py || b px py) s := by
  have hb : ∀ px py, b px py = true → a px py = false := by
    intro px py hb
    cases ha : a px py with
    | false => rfl
    | true => simp [h px py ha] at hb
  refine Prod.ext (funext fun px => funext fun py => ?_) (Bool.eq_iff_iff.2 ?_)
  · simp only [paint]
    cases ha : a px py with
    | false => simp
    | true => simp [h px py ha]
  · rw [paint_snd, paint_snd, paint_snd, or_assoc]
    refine or_congr Iff.rfl ⟨?_, ?_⟩
    · rintro (⟨px, hpx, py, hpy, hs, ha⟩ | ⟨px, hpx, py, hpy, hs, hbp⟩)
      · exact ⟨px, hpx, py, hpy, hs, by simp [ha]⟩
      · -- what `b` covers, `a` left as it was
        have ha := hb px py hbp
        exact ⟨px, hpx, py, hpy, by simpa [paint, ha] using hs, by simp [hbp]⟩
    · rintro ⟨px, hpx, py, hpy, hs, hab⟩
      cases ha : a px py with
      | true => exact .inl ⟨px, hpx, py, hpy, hs, ha⟩
      | false => exact .inr ⟨px, hpx, py, hpy, by simp [paint, hs, ha], by simpa [ha] using hab⟩

/-- The first `n` columns from `c` on of a byte, at its place in a row. -/
def strip (row column c n : Nat) (b : Byte) (px py : Nat) : Bool :=
  decide (py = row ∧ column + c ≤ px ∧ px < column + c + n ∧ px < 64) && b.getMsbD (px - column)

/-- What bytes below each other cover of the screen. -/
def block (column row : Nat) (sprite : List Byte) (px py : Nat) : Bool :=
  decide (px < 64 ∧ py < 32) && Screen.covers column row sprite px py

/-! ## Loops -/

theorem testBit_eq_getMsbD (bits : Int) {c : Nat} (hc : c < 8) :
    bits.testBit (7 - c) = (BitVec.ofInt 8 bits).getMsbD c := by
  have hmsb : (BitVec.ofInt 8 bits).getMsbD c = (BitVec.ofInt 8 bits).getLsbD (7 - c) := by
    simp [BitVec.getMsbD, hc]
  have hlt : 7 - c < 8 := by omega
  rw [hmsb, getLsbD_ofInt, decide_eq_true hlt, Bool.true_and]

theorem strip_zero (row column c : Nat) (b : Byte) : strip row column c 0 b = fun _ _ => false := by
  funext px py
  simp only [strip, Bool.and_eq_false_imp, decide_eq_true_eq]
  omega

theorem strip_of_edge {row column c n : Nat} {b : Byte} (h : 64 ≤ column + c) :
    strip row column c n b = fun _ _ => false := by
  funext px py
  simp only [strip, Bool.and_eq_false_imp, decide_eq_true_eq]
  omega

/-- A strip is its first pixel, if that is set, and the rest. -/
theorem strip_succ {row column c n : Nat} {b : Byte} (h : column + c < 64) :
    strip row column c (n + 1) b = fun px py =>
      (b.getMsbD c && decide (px = column + c ∧ py = row)) || strip row column (c + 1) n b px py := by
  funext px py
  by_cases hpx : px = column + c
  · have hrest : ¬ c + 1 ≤ c := by omega
    simp [strip, hpx, h, hrest, Bool.and_comm]
  · have hiff : (py = row ∧ column + c ≤ px ∧ px < column + c + (n + 1) ∧ px < 64) ↔
        (py = row ∧ column + (c + 1) ≤ px ∧ px < column + (c + 1) + n ∧ px < 64) := by omega
    simp only [strip, hiff, hpx, false_and, decide_false, Bool.and_false, Bool.false_or]

theorem drawColumns_eq {row column c n : Nat} (bits : Int) (s : Picture) (hrow : row < 32)
    (hn : c + n ≤ 8) :
    drawColumns row column bits (List.range' c n) (canvas s.1, s.2) =
      let t := paint (strip row column c n (BitVec.ofInt 8 bits)) s
      some (canvas t.1, t.2) := by
  induction n generalizing c s with
  | zero => simp [strip_zero, drawColumns]
  | succ n ih =>
    have hbit := testBit_eq_getMsbD bits (show c < 8 by omega)
    rw [List.range'_succ, drawColumns]
    split
    next hedge => simp [strip_of_edge (by omega : 64 ≤ column + c)]
    next hedge =>
      have hpx : column + c < 64 := by omega
      have hplace : (row : Int) * 64 + (column + c) = row * 64 + ((column + c : Nat) : Int) := by
        push_cast
        rfl
      rw [strip_succ hpx, ← hbit]
      split
      next hset =>
        have hfirst := paint_pixel hpx hrow s
        have hdisjoint : ∀ px py, decide (px = column + c ∧ py = row) = true →
            strip row column (c + 1) n (BitVec.ofInt 8 bits) px py = false := by
          intro px py h
          simp only [decide_eq_true_eq] at h
          simp only [strip, Bool.and_eq_false_imp, decide_eq_true_eq]
          omega
        have hrest := ih (paint (fun px py => decide (px = column + c ∧ py = row)) s) (by omega : c + 1 + n ≤ 8)
        rw [paint_paint hdisjoint, hfirst] at hrest
        rw [hplace, at?_canvas _ hpx hrow]
        simp only [Option.bind_eq_bind, Option.bind_some, put?_canvas _ hpx hrow, hset, Bool.true_and]
        exact hrest
      next hset =>
        simp only [hset, Bool.false_and, Bool.false_or]
        exact @ih (c + 1) s (by omega)

theorem block_of_edge {column row : Nat} {sprite : List Byte} (h : 32 ≤ row) :
    block column row sprite = fun _ _ => false := by
  funext px py
  simp only [block, Screen.covers, Bool.and_eq_false_imp, decide_eq_true_eq]
  omega

/-- A block is its first row and the block below it. -/
theorem block_cons {column row : Nat} {b : Byte} {rest : List Byte} (h : row < 32) :
    block column row (b :: rest) = fun px py =>
      strip row column 0 8 b px py || block column (row + 1) rest px py := by
  funext px py
  by_cases hpy : py = row
  · have hbelow : ¬ row + 1 ≤ row := by omega
    by_cases hcol : column ≤ px ∧ px < column + 8
    · simp [block, strip, Screen.covers, hpy, h, hbelow, hcol]
    · -- beyond its eight columns the byte has no set bit
      have hoff : column ≤ px → b.getMsbD (px - column) = false := fun hle =>
        BitVec.getMsbD_of_ge b _ (by omega)
      simp only [block, strip, Screen.covers, hpy, h, hbelow]
      grind
  · by_cases hle : row ≤ py
    · have hbelow : row + 1 ≤ py := by omega
      have hnext : (b :: rest)[py - row]? = rest[py - (row + 1)]? := by
        rw [show py - row = py - (row + 1) + 1 by omega, List.getElem?_cons_succ]
      simp [block, strip, Screen.covers, hpy, hle, hbelow, hnext]
    · have hbelow : ¬ row + 1 ≤ py := by omega
      simp [block, strip, Screen.covers, hpy, hle, hbelow]

theorem drawRows_eq {column row : Nat} (rows : List Int) (s : Picture) :
    drawRows column row rows (canvas s.1, s.2) =
      let t := paint (block column row (rows.map (BitVec.ofInt 8))) s
      some (canvas t.1, t.2) := by
  induction rows generalizing row s with
  | nil =>
    have h : block column row [] = fun _ _ => false := by
      funext px py
      simp [block, Screen.covers]
    simp [h, drawRows]
  | cons bits rest ih =>
    rw [drawRows]
    split
    next hedge => simp [block_of_edge (by omega : 32 ≤ row)]
    next hedge =>
      have hrow : row < 32 := by omega
      have hdisjoint : ∀ px py, strip row column 0 8 (BitVec.ofInt 8 bits) px py = true →
          block column (row + 1) (rest.map (BitVec.ofInt 8)) px py = false := by
        intro px py h
        simp only [strip, Bool.and_eq_true, decide_eq_true_eq] at h
        simp only [block, Screen.covers, Bool.and_eq_false_imp, decide_eq_true_eq]
        omega
      have hrest := @ih (row + 1) (paint (strip row column 0 8 (BitVec.ofInt 8 bits)) s)
      rw [paint_paint hdisjoint] at hrest
      rw [List.range_eq_range', drawColumns_eq bits s hrow (by omega), List.map_cons, block_cons hrow]
      exact hrest

end Plain

theorem Screen.flatten_eq_canvas (s : Screen) : s.pixelRows.flatten = Plain.canvas s.lit :=
  s.flatten_pixelRows

/-- The loops over a screen's pixels draw its rows. -/
theorem Plain.drawRows_flatten (s : Screen) (x y : Int) (rows : List Int) :
    Plain.drawRows (x % 64) (y % 32) rows (s.pixelRows.flatten, false) =
      let sprite := rows.map (BitVec.ofInt 8)
      some ((s.draw x y sprite).pixelRows.flatten, s.collides x y sprite) := by
  let sprite := rows.map (BitVec.ofInt 8)
  let column := Screen.startColumn x
  let row := Screen.startRow y
  have hcolumn : x % 64 = (column : Int) := (Screen.startColumn_cast x).symm
  have hrow : y % 32 = (row : Int) := (Screen.startRow_cast y).symm
  have hpixels : (s.draw x y sprite).pixelRows.flatten =
      Plain.canvas (Plain.paint (Plain.block column row sprite) (s.lit, false)).1 := by
    rw [Screen.flatten_eq_canvas]
    refine Plain.canvas_congr fun px hpx py hpy => ?_
    simp [Plain.paint, Plain.block, hpx, hpy, Screen.lit_draw, column, row]
  have hhit : s.collides x y sprite =
      (Plain.paint (Plain.block column row sprite) (s.lit, false)).2 := by
    rw [Bool.eq_iff_iff, Plain.paint_snd, Screen.collides_iff]
    constructor
    · rintro ⟨px, hpx, py, hpy, hlit, hcover⟩
      exact .inr ⟨px, hpx, py, hpy, hlit, by simpa [Plain.block, hpx, hpy] using hcover⟩
    · rintro (h | ⟨px, hpx, py, hpy, hlit, hcover⟩)
      · cases h
      · exact ⟨px, hpx, py, hpy, hlit, by simpa [Plain.block, hpx, hpy] using hcover⟩
  show _ = some ((s.draw x y sprite).pixelRows.flatten, s.collides x y sprite)
  rw [hcolumn, hrow, Screen.flatten_eq_canvas s, hpixels, hhit]
  exact Plain.drawRows_eq rows (s.lit, false)

namespace Machine

theorem plain_pixels (m : Machine) : m.plain.pixels = Plain.canvas m.screen.lit :=
  m.screen.flatten_eq_canvas

theorem replicate_blank : List.replicate 2048 false = Screen.blank.pixelRows.flatten := by
  rw [Screen.flatten_pixelRows, List.map_congr_left fun _ _ => Screen.lit_blank, List.map_const',
    List.length_range]

theorem plain_clear (m : Machine) : m.plain.clear = { m with screen := .blank }.plain := by
  rw [Plain.clear, replicate_blank]
  rfl

theorem plain_setPixel (m : Machine) (x y : Int) (on : Bool) : m.plain.setPixel x y on =
    some ((m.screen.setPixel x y on).map fun screen => { m with screen }.plain) := by
  by_cases hc : (0 ≤ x ∧ x < 64) ∧ 0 ≤ y ∧ y < 32
  · obtain ⟨t, ht⟩ : ∃ t, m.screen.setPixel x y on = .ok t := by
      rw [Screen.setPixel, if_pos (Screen.contains_iff.2 hc)]
      exact ⟨_, rfl⟩
    obtain ⟨⟨hx, hx'⟩, hy, hy'⟩ := hc
    obtain ⟨px, rfl⟩ := Int.eq_ofNat_of_zero_le hx
    obtain ⟨py, rfl⟩ := Int.eq_ofNat_of_zero_le hy
    have hput : Plain.put? m.plain.pixels (py * 64 + px) on = some t.pixelRows.flatten := by
      rw [plain_pixels, Plain.put?_canvas _ (by omega) (by omega), Screen.flatten_eq_canvas]
      refine congrArg some (Plain.canvas_congr fun x hx y hy => ?_)
      rw [Screen.lit_of_setPixel ht hx hy]
      rfl
    rw [Plain.setPixel, if_pos ⟨hx, hx', hy, hy'⟩, hput, ht]
    rfl
  · have hoff : ¬ Screen.contains x y = true := mt Screen.contains_iff.1 hc
    have hc' : ¬ (0 ≤ x ∧ x < 64 ∧ 0 ≤ y ∧ y < 32) := by omega
    rw [Plain.setPixel, if_neg hc', Screen.setPixel, if_neg hoff]
    rfl

theorem plain_drawSprite (m : Machine) (x y : Int) (rows : List Int) :
    m.plain.drawSprite x y rows =
      let sprite := rows.map (BitVec.ofInt 8)
      some ({ m with screen := m.screen.draw x y sprite }.plain, m.screen.collides x y sprite) := by
  have hdraw := Plain.drawRows_flatten m.screen x y rows
  have hpixels : m.plain.pixels = m.screen.pixelRows.flatten := rfl
  rw [Plain.drawSprite, hpixels, hdraw]
  rfl

end Machine
end Chip8
