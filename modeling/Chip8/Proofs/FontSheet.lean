/-
The font in text and picture. The glyphs are drawn side by side and never over
one another, so each of their bits turns over a pixel of its own (`Turns`). The
text is laid out by itself, in lines of one width; it has a character for each
of the four left columns of a glyph, and these are the pixels.
-/
import Chip8.FontSheet
import Chip8.Proofs.Numeral
import Chip8.Proofs.Screen.Drawings
import Chip8.Proofs.Text

namespace Chip8.FontSheet

variable {M : Memory} {s : Screen}

/-! ## Glyphs in memory -/

theorem glyphBytes_eq {digit : Nat} (hd : digit < 16) :
    glyphBytes M digit = (List.range 5).map fun r => M.read (digit * 5 + r : Nat) := by
  have haddress : Font.glyphAddress digit = digit * 5 := by
    unfold Font.glyphAddress Font.glyphHeight
    omega
  simp only [glyphBytes, Memory.readBytes, haddress, Font.glyphHeight, Int.natCast_add]
  rfl

theorem getElem?_glyphBytes {digit r : Nat} (hd : digit < 16) (hr : r < 5) :
    (glyphBytes M digit)[r]? = some (M.read (digit * 5 + r : Nat)) := by
  simp [glyphBytes_eq hd, hr]

theorem length_glyphBytes {digit : Nat} (hd : digit < 16) : (glyphBytes M digit).length = 5 := by
  simp [glyphBytes_eq hd]

/-! ## The glyphs drawn -/

/-- The glyph of a digit as a drawing. -/
def drawing (M : Memory) (digit : Nat) : Drawing where
  x := (digit % glyphsPerRow * 8 + 2 : Nat)
  y := (digit / glyphsPerRow * 16 + 5 : Nat)
  rows := (glyphBytes M digit).map fun b => (b.toNat : Int)

theorem map_ofInt_rows (M : Memory) (digit : Nat) :
    (drawing M digit).rows.map (BitVec.ofInt 8) = glyphBytes M digit := by
  simp [drawing, Function.comp_def]

theorem draw_eq_drawAll (M : Memory) (s : Screen) :
    draw M s = s.drawAll ((List.range 16).map (drawing M)) := by
  have hone : ∀ (s : Screen) (digit : Nat), drawGlyph M s digit = s.drawOne (drawing M digit) := by
    intro s digit
    rw [Screen.drawOne, map_ofInt_rows]
    rfl
  rw [draw, Screen.drawAll, List.foldl_map]
  exact congrArg (fun f => (List.range 16).foldl f s) (funext₂ hone)

/-- A glyph lies over eight columns and five rows, with its most significant bit
on the left. -/
theorem sets_drawing {digit px py : Nat} (hd : digit < 16) :
    (drawing M digit).sets px py = true ↔
      ∃ r < 5, ∃ c < 8, px = 2 + 8 * (digit % 8) + c ∧ py = 5 + 16 * (digit / 8) + r ∧
        (M.read (digit * 5 + r : Nat)).getLsbD (7 - c) = true := by
  have hx : Screen.startColumn (drawing M digit).x = 2 + 8 * (digit % 8) := by
    simp only [Screen.startColumn, drawing, glyphsPerRow, Screen.width]
    omega
  have hy : Screen.startRow (drawing M digit).y = 5 + 16 * (digit / 8) := by
    simp only [Screen.startRow, drawing, glyphsPerRow, Screen.height]
    omega
  rw [Drawing.sets, ← Screen.covers_eq_sets, map_ofInt_rows, hx, hy, Screen.covers, Bool.and_eq_true,
    decide_eq_true_eq]
  constructor
  · intro h
    obtain ⟨⟨hcolumn, hrow⟩, hbit⟩ := h
    obtain ⟨c, rfl⟩ := Nat.exists_eq_add_of_le hcolumn
    obtain ⟨r, rfl⟩ := Nat.exists_eq_add_of_le hrow
    rw [Nat.add_sub_cancel_left, Nat.add_sub_cancel_left] at hbit
    have hr : r < 5 := by
      by_contra hr
      rw [List.getElem?_eq_none (by rw [length_glyphBytes hd]; omega)] at hbit
      simp at hbit
    have hc : c < 8 := BitVec.lt_of_getMsbD hbit
    rw [getElem?_glyphBytes hd hr, Option.getD_some, BitVec.getMsbD_eq_getLsbD] at hbit
    exact ⟨r, hr, c, hc, rfl, rfl, (Bool.and_eq_true_iff.1 hbit).2⟩
  · intro h
    obtain ⟨r, hr, c, hc, rfl, rfl, hbit⟩ := h
    refine ⟨⟨Nat.le_add_right _ _, Nat.le_add_right _ _⟩, ?_⟩
    rw [Nat.add_sub_cancel_left, Nat.add_sub_cancel_left, getElem?_glyphBytes hd hr,
      Option.getD_some, BitVec.getMsbD_eq_getLsbD, decide_eq_true hc, Bool.true_and]
    exact hbit

/-- A pixel over which no other glyph has a bit is turned over by that of one. -/
theorem lit_draw {digit px py : Nat} (hd : digit < 16) (hpx : px < 64) (hpy : py < 32)
    (honly : ∀ other < 16, (drawing M other).sets px py = true → other = digit) :
    (draw M s).lit px py = (s.lit px py ^^ (drawing M digit).sets px py) := by
  have hothers : ((List.range 16).erase digit).countP
      ((fun d : Drawing => d.sets px py) ∘ drawing M) = 0 := by
    apply List.countP_eq_zero.2
    intro other hmem hset
    obtain ⟨hne, hmem⟩ := List.nodup_range.mem_erase_iff.1 hmem
    exact hne (honly other (List.mem_range.1 hmem) hset)
  rw [draw_eq_drawAll, Screen.lit_drawAll s _ hpx hpy, List.countP_map,
    (List.perm_cons_erase (List.mem_range.2 hd)).countP_eq, List.countP_cons, hothers]
  cases h : (drawing M digit).sets px py <;> simp [h]

/-- Of a glyph each bit turns over the pixel at its column and row, if that is on
the screen; all other pixels are kept. -/
structure Turns (M : Memory) (s t : Screen) : Prop where
  turned : ∀ i < 8, ∀ j < 2, ∀ r < 5, ∀ c < 8, 2 + 8 * i + c < 64 →
    t.lit (2 + 8 * i + c) (5 + 16 * j + r) =
      (s.lit (2 + 8 * i + c) (5 + 16 * j + r) ^^
        (M.read ((8 * j + i) * 5 + r : Nat)).getLsbD (7 - c))
  kept : ∀ px < 64, ∀ py < 32,
    (∀ i < 8, ∀ j < 2, ∀ r < 5, ∀ c < 8, ¬ (px = 2 + 8 * i + c ∧ py = 5 + 16 * j + r)) →
      t.lit px py = s.lit px py

theorem sets_drawing_inside {i j r c : Nat} (hi : i < 8) (hj : j < 2) (hr : r < 5) (hc : c < 8) :
    (drawing M (8 * j + i)).sets (2 + 8 * i + c) (5 + 16 * j + r) =
      (M.read ((8 * j + i) * 5 + r : Nat)).getLsbD (7 - c) := by
  rw [Bool.eq_iff_iff, sets_drawing (by omega)]
  constructor
  · intro h
    obtain ⟨r', hr', c', hc', hx, hy, hbit⟩ := h
    have hr : r' = r := by omega
    have hc : c' = c := by omega
    rwa [hr, hc] at hbit
  · intro hbit
    exact ⟨r, hr, c, hc, by omega, by omega, hbit⟩

theorem turns_draw (M : Memory) (s : Screen) : Turns M s (draw M s) where
  turned i hi j hj r hr c hc hx := by
    rw [lit_draw (by omega : 8 * j + i < 16) hx (by omega), sets_drawing_inside hi hj hr hc]
    intro other ho hset
    obtain ⟨r', hr', c', hc', hx', hy', -⟩ := (sets_drawing ho).1 hset
    omega
  kept px hpx py hpy hout := by
    have hnone : ∀ digit < 16, ¬ (drawing M digit).sets px py = true := by
      intro digit hd hset
      obtain ⟨r, hr, c, hc, hx, hy, -⟩ := (sets_drawing hd).1 hset
      exact hout (digit % 8) (by omega) (digit / 8) (by omega) r hr c hc ⟨hx, hy⟩
    rw [lit_draw (by decide : 0 < 16) hpx hpy fun other ho hset => absurd hset (hnone other ho),
      Bool.eq_false_iff.2 (hnone 0 (by decide)), Bool.xor_false]

/-! ## The glyphs written -/

theorem toList_rowText (b : Byte) :
    (rowText b).toList = (List.range 4).map fun k => if b.getMsbD k then '#' else '.' := by
  rw [rowText, String.toList_ofList]
  rfl

theorem length_rowText (b : Byte) : (rowText b).length = 4 := by
  rw [← String.length_toList, toList_rowText, List.length_map, List.length_range]

theorem getElem?_glyphRows {digit r : Nat} (hd : digit < 16) (hr : r < 5) :
    (glyphRows M digit)[r]? = some (rowText (M.read (digit * 5 + r : Nat))) := by
  rw [glyphRows, List.getElem?_map, getElem?_glyphBytes hd hr]
  rfl

theorem getElem?_rowText {c : Nat} (b : Byte) (hc : c < 4) :
    (rowText b).toList[c]? = some (if b.getLsbD (7 - c) then '#' else '.') := by
  have hbit : b.getMsbD c = b.getLsbD (7 - c) := by
    rw [BitVec.getMsbD_eq_getLsbD, decide_eq_true (by omega : c < 8), Bool.true_and]
  simp [toList_rowText, hc, hbit]

/-! ## The lines of the sheet -/

section Line

variable {cell : Nat → String} {first : Nat}

theorem toList_joined (cell : Nat → String) (first : Nat) :
    (joined ((List.range' first 8).map cell)).toList =
      [' ', ' '].intercalate ((List.range' first 8).map fun d => (cell d).toList) := by
  rw [joined, String.toList_intercalate, List.map_map]
  rfl

theorem length_of_mem_cells (hwidth : ∀ d < first + 8, (cell d).length = 4) :
    ∀ x ∈ (List.range' first 8).map fun d => (cell d).toList, x.length = 4 := by
  intro x hx
  obtain ⟨d, hd, rfl⟩ := List.mem_map.1 hx
  rw [String.length_toList]
  exact hwidth d (List.mem_range'_1.1 hd).2

theorem length_joined (hwidth : ∀ d < first + 8, (cell d).length = 4) :
    (joined ((List.range' first 8).map cell)).length = 46 := by
  have hrest : (Text.rest [' ', ' '] ((List.range' first 8).map fun d => (cell d).toList)).length =
      (2 + 4) * ((List.range' first 8).map fun d => (cell d).toList).length :=
    Text.length_rest_of_width (length_of_mem_cells hwidth)
  rw [Text.rest_of_ne_nil (by simp), List.length_append, List.length_map, List.length_range',
    ← toList_joined, String.length_toList] at hrest
  have hsep : [' ', ' '].length = 2 := rfl
  omega

theorem getElem?_joined {i c : Nat} (hwidth : ∀ d < first + 8, (cell d).length = 4) (hi : i < 8)
    (hc : c < 4) :
    (joined ((List.range' first 8).map cell)).toList[6 * i + c]? = (cell (first + i)).toList[c]? := by
  have hcell : ((List.range' first 8).map fun d => (cell d).toList)[i]? =
      some (cell (first + i)).toList := by
    simp [hi]
  have hplace : 6 * i + c = ([' ', ' '].length + 4) * i + c := rfl
  rw [toList_joined, hplace, Text.getElem?_intercalate (length_of_mem_cells hwidth) hcell hc]

end Line

/-- A digit above its glyph. -/
theorem length_label {digit : Nat} (hd : digit < 16) :
    (Numeral.padRight Font.glyphWidth (Numeral.hex 1 digit)).length = 4 := by
  have hhex : (Numeral.hex 1 digit).length = 1 := Numeral.length_hex (by decide) hd
  rw [Numeral.padRight, String.length_append, hhex]
  rfl

/-- The text of a row of a glyph. -/
theorem cell_eq {digit r : Nat} (hd : digit < 16) (hr : r < 5) :
    ((glyphRows M digit)[r]?).getD "" = rowText (M.read (digit * 5 + r : Nat)) := by
  rw [getElem?_glyphRows hd hr, Option.getD_some]

theorem length_cell {digit r : Nat} (hd : digit < 16) (hr : r < 5) :
    (((glyphRows M digit)[r]?).getD "").length = 4 := by
  rw [cell_eq hd hr, length_rowText]

theorem length_of_mem_block {first : Nat} (hfirst : first ≤ 8) :
    ∀ line ∈ block M first, line.length = 46 := by
  intro line hline
  rw [block, List.mem_cons, List.mem_map] at hline
  rcases hline with rfl | ⟨r, hr, rfl⟩
  · exact length_joined fun d hd => length_label (by omega)
  · exact length_joined fun d hd => length_cell (by omega) (List.mem_range.1 hr)

theorem length_block (M : Memory) (first : Nat) : (block M first).length = 6 := by
  rw [block, List.length_cons, List.length_map, List.length_range]
  rfl

theorem getElem?_block {first r : Nat} (M : Memory) (hr : r < 5) :
    (block M first)[1 + r]? =
      some (joined ((List.range' first 8).map fun (d : Nat) => ((glyphRows M d)[r]?).getD "")) := by
  have hrow : (List.range Font.glyphHeight)[r]? = some r := List.getElem?_range hr
  rw [block, Nat.add_comm, List.getElem?_cons_succ, List.getElem?_map, hrow]
  rfl

/-! ## The whole sheet -/

/-- Two blocks with an empty line between them, each line behind a line feed. -/
theorem cons_toList_sheet (M : Memory) :
    '\n' :: (sheet M).toList =
      Text.rest ['\n'] ((block M 0).map String.toList) ++
        '\n' :: Text.rest ['\n'] ((block M 8).map String.toList) := by
  have hlines : '\n' :: (sheet M).toList =
      Text.rest ['\n'] ((block M 0 ++ "" :: block M 8).map String.toList) := by
    rw [Text.rest_of_ne_nil (by simp), sheet, String.toList_intercalate]
    rfl
  rw [hlines, List.map_append, Text.rest_append, List.map_cons, Text.rest_cons]
  rfl

theorem length_of_mem_blockLines {first : Nat} (hfirst : first ≤ 8) :
    ∀ x ∈ (block M first).map String.toList, x.length = 46 := by
  intro x hx
  obtain ⟨line, hline, rfl⟩ := List.mem_map.1 hx
  rw [String.length_toList, length_of_mem_block hfirst line hline]

theorem length_rest_block {first : Nat} (hfirst : first ≤ 8) :
    (Text.rest ['\n'] ((block M first).map String.toList)).length = 282 := by
  rw [Text.length_rest_of_width (length_of_mem_blockLines hfirst), List.length_map, length_block]
  rfl

theorem getElem?_rest_block {first k q : Nat} {line : String} (hfirst : first ≤ 8)
    (hline : (block M first)[k]? = some line) (hq : q < 46) :
    (Text.rest ['\n'] ((block M first).map String.toList))[47 * k + (1 + q)]? = line.toList[q]? := by
  have hpart : ((block M first).map String.toList)[k]? = some line.toList := by
    rw [List.getElem?_map, hline]
    rfl
  exact Text.getElem?_rest (length_of_mem_blockLines hfirst) hpart hq

/-- A block starts every 283 characters, a line in it every 47. -/
theorem getElem?_sheet {j k q : Nat} {line : String} (hj : j < 2)
    (hline : (block M (8 * j))[k]? = some line) (hq : q < 46) :
    (sheet M).toList[283 * j + 47 * k + q]? = line.toList[q]? := by
  have hk : k < 6 := length_block M (8 * j) ▸ (List.getElem?_eq_some_iff.1 hline).1
  rw [← List.getElem?_cons_succ (a := '\n'), cons_toList_sheet]
  obtain rfl | rfl : j = 0 ∨ j = 1 := by omega
  · have hplace : 283 * 0 + 47 * k + q + 1 = 47 * k + (1 + q) := by omega
    rw [hplace, List.getElem?_append_left (by rw [length_rest_block (by decide)]; omega),
      getElem?_rest_block (by decide) hline hq]
  · have hplace : 283 * 1 + 47 * k + q + 1 = 282 + (47 * k + (1 + q) + 1) := by omega
    rw [hplace, List.getElem?_append_right (by rw [length_rest_block (by decide)]; omega),
      length_rest_block (by decide), Nat.add_sub_cancel_left, List.getElem?_cons_succ,
      getElem?_rest_block (by decide) hline hq]

/-- The characters of the glyphs, by themselves and on the sheet, are the pixels
of a screen: `#` for a lit one. -/
def Shows (M : Memory) (t : Screen) : Prop :=
  ∀ i < 8, ∀ j < 2, ∀ r < 5, ∀ c < 4, ∃ row, (glyphRows M (8 * j + i : Nat))[r]? = some row ∧
    row.toList[c]? = some (if t.lit (2 + 8 * i + c) (5 + 16 * j + r) then '#' else '.') ∧
    (sheet M).toList[283 * j + 47 * (1 + r) + (6 * i + c)]? = row.toList[c]?

theorem shows_of_turns {t : Screen} (h : Turns M .blank t) : Shows M t := by
  intro i hi j hj r hr c hc
  have hd : 8 * j + i < 16 := by omega
  refine ⟨_, getElem?_glyphRows hd hr, ?_, ?_⟩
  · rw [getElem?_rowText _ hc, h.turned i hi j hj r hr c (by omega) (by omega), Screen.lit_blank,
      Bool.false_xor]
  · rw [getElem?_sheet hj (getElem?_block M hr) (by omega),
      getElem?_joined (fun d hd => length_cell (by omega) hr) hi hc, cell_eq hd hr]

/-- **The font is written as it is drawn.** Drawing it turns over, over any screen
and from any memory, the pixel of each bit that is set in a glyph and no other
pixel. So a blank screen shows the glyphs, and the texts of their rows, also in
their places on the sheet, show the same. -/
theorem sheet_isDrawn (M : Memory) (s : Screen) : Turns M s (draw M s) ∧ Shows M (draw M .blank) :=
  ⟨turns_draw M s, shows_of_turns (turns_draw M .blank)⟩

/-- A memory with the same byte in every place. -/
def striped : Memory := ⟨Vector.replicate 4096 0xA5, 0⟩

/-- The last row of the last glyph, which the right edge cuts off. -/
theorem striped_isDrawn :
    (draw striped .blank).lit 63 25 = true ∧ (draw striped .blank).lit 0 0 = false ∧
    (sheet striped).toList[283 + 47 * 5 + 42]? = some '#' ∧
    (sheet striped).toList[283 + 47 * 5 + 43]? = some '.' := by
  have hbyte : ∀ place : Int, striped.read place = 0xA5 := by
    intro place
    simp [striped, Memory.read, Memory.get]
  obtain ⟨hturns, hshows⟩ := sheet_isDrawn striped .blank
  have hpixel : ∀ c < 6, (draw striped .blank).lit (58 + c) 25 = (0xA5#8).getLsbD (7 - c) := by
    intro c hc
    have hturned := hturns.turned 7 (by decide) 1 (by decide) 4 (by decide) c (by omega) (by omega)
    rwa [Screen.lit_blank, Bool.false_xor, hbyte] at hturned
  have hchar : ∀ c < 4, (sheet striped).toList[283 + 47 * 5 + (42 + c)]? =
      some (if (0xA5#8).getLsbD (7 - c) then '#' else '.') := by
    intro c hc
    obtain ⟨row, -, hmark, hsheet⟩ := hshows 7 (by decide) 1 (by decide) 4 (by decide) c hc
    have hmark : row.toList[c]? =
      some (if (draw striped .blank).lit (58 + c) 25 then '#' else '.') := hmark
    rw [hpixel c (by omega)] at hmark
    exact hsheet.trans hmark
  refine ⟨hpixel 5 (by decide), ?_, hchar 0 (by decide), hchar 1 (by decide)⟩
  rw [hturns.kept 0 (by decide) 0 (by decide) (by omega), Screen.lit_blank]

end Chip8.FontSheet
