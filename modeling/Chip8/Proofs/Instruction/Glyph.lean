/-
A digit in a register shown on the screen. Loading a glyph sets the index to
five times the register, all of whose bits count; the font's own address of a
digit looks at the lowest four only. So the glyph drawn there is the one that
the font sheet writes exactly up to fifteen, and past that it is whatever lies
behind the font.
-/
import Chip8.Proofs.Effect
import Chip8.Proofs.FontSheet
import Chip8.Proofs.Instruction.Drawing

namespace Chip8.Machine

variable {m : Machine} {x y z : Register}

/-- The left four columns of a sprite drawn at a position show the rows of a text:
the pixel under a cell that is not cut off is lit exactly if the cell is `#`. -/
def ShowsCells (rows : List String) (x y : Byte) (s : Screen) : Prop :=
  ∀ r < 5, ∀ c < 4, x.toNat % 64 + c < 64 → y.toNat % 32 + r < 32 →
    ∃ row, rows[r]? = some row ∧
      (s.lit (x.toNat % 64 + c) (y.toNat % 32 + r) = true ↔ row.toList[c]? = some '#')

/-! ## The address -/

theorem toNat_index_loadGlyph (b : Byte) :
    (b.setWidth 12 * BitVec.ofNat 12 Font.glyphHeight).toNat = 5 * b.toNat := by
  have hb := b.isLt
  rw [BitVec.toNat_mul, BitVec.toNat_setWidth, BitVec.toNat_ofNat, Font.glyphHeight]
  omega

theorem glyphAddress_eq_iff (b : Byte) :
    5 * b.toNat = Font.glyphAddress b.toNat ↔ b.toNat < 16 := by
  unfold Font.glyphAddress Font.glyphHeight
  omega

/-- Up to fifteen the rows from there on are those of the digit. -/
theorem glyphRows_of_lt (M : Memory) {b : Byte} (hb : b.toNat < 16) :
    FontSheet.glyphRows M b.toNat =
      (M.readBytes (5 * b.toNat : Nat) 5).map FontSheet.rowText := by
  rw [(glyphAddress_eq_iff b).2 hb]
  rfl

/-! ## The sprite -/

/-- Five bytes drawn on a blank screen show their texts. -/
theorem showsCells_draw (M : Memory) (place : Int) (x y : Byte) :
    ShowsCells ((M.readBytes place 5).map FontSheet.rowText) x y
      (Screen.blank.draw x.toNat y.toNat (M.readBytes place 5)) := by
  intro r hr c hc hpx hpy
  have hbyte : (M.readBytes place 5)[r]? = some (M.read (place + r)) := by
    simp [Memory.readBytes, hr]
  have hcolumn : Screen.startColumn (x.toNat : Int) = x.toNat % 64 := by
    simp only [Screen.startColumn, Screen.width]
    omega
  have hrow : Screen.startRow (y.toNat : Int) = y.toNat % 32 := by
    simp only [Screen.startRow, Screen.height]
    omega
  refine ⟨FontSheet.rowText (M.read (place + r)), by rw [List.getElem?_map, hbyte]; rfl, ?_⟩
  rw [Screen.lit_draw hpx hpy, Screen.lit_blank, Bool.false_xor, hcolumn, hrow, Screen.covers,
    Nat.add_sub_cancel_left, Nat.add_sub_cancel_left, hbyte, FontSheet.getElem?_rowText _ hc,
    Option.getD_some, BitVec.getMsbD_eq_getLsbD]
  have hc : c < 8 := by omega
  simp [hc]

/-! ## Both instructions -/

/-- Drawing five rows on a blank screen shows the bytes from the index on. -/
theorem showsCells_drawSprite (hblank : m.screen = .blank) (y z : Register) :
    ShowsCells ((m.memory.readBytes m.index.toNat 5).map FontSheet.rowText) (m.register y)
      (m.register z) (m.drawSprite y z 5).screen := by
  have hdrawn : (m.drawSprite y z 5).screen =
      m.screen.draw (m.register y).toNat (m.register z).toNat (m.memory.readBytes m.index.toNat 5) :=
    rfl
  rw [hdrawn, hblank]
  exact showsCells_draw m.memory m.index.toNat (m.register y) (m.register z)

/-- **A digit is drawn as the font sheet writes it.** Loading the glyph of a register
leaves five times its value in the index, which is the font's address of the
digit exactly up to fifteen. Five rows drawn from there on a blank screen, at
the values of any two registers, show the bytes there; up to fifteen these are
the rows of the digit, whatever memory holds. -/
theorem glyph_isDrawn (m : Machine) (x y z : Register) :
    m.HasEffect (.loadGlyph x) fun m m' =>
      m'.index.toNat = 5 * (m.register x).toNat ∧
      (m'.index.toNat = Font.glyphAddress (m.value x) ↔ (m.register x).toNat < 16) ∧
      (m.screen = .blank → m'.HasEffect (.draw y z 5) fun _ m'' =>
        ShowsCells ((m.memory.readBytes (5 * (m.register x).toNat : Nat) 5).map FontSheet.rowText)
          (m.register y) (m.register z) m''.screen ∧
        ((m.register x).toNat < 16 → ShowsCells (FontSheet.glyphRows m.memory (m.value x))
          (m.register y) (m.register z) m''.screen)) := by
  refine hasEffect fun m _ _ _ => ⟨_, rfl, ?_⟩
  dsimp only
  have hindex := toNat_index_loadGlyph (m.register x)
  refine ⟨hindex, by rw [hindex]; exact glyphAddress_eq_iff _, fun hblank => ?_⟩
  refine hasEffect fun n hn _ _ => ⟨n.drawSprite y z 5, rfl, ?_⟩
  -- neither the tick nor the move of the program counter is seen by the drawing
  obtain ⟨hscreen, hmemory, hregister, hn⟩ : n.screen = .blank ∧ n.memory = m.memory ∧
      (∀ r, n.register r = m.register r) ∧ n.index.toNat = 5 * (m.register x).toNat := by
    rcases hn with rfl | rfl
    · exact ⟨hblank, rfl, fun r => rfl, hindex⟩
    · exact ⟨hblank, rfl, fun r => rfl, hindex⟩
  have hshows := showsCells_drawSprite hscreen y z
  rw [hmemory, hn, hregister, hregister] at hshows
  refine ⟨hshows, fun hx => ?_⟩
  rw [value, glyphRows_of_lt m.memory hx]
  exact hshows

/-- The cells of a digit are the bits of its bytes. -/
theorem ShowsCells.lit_eq {M : Memory} {digit r c : Nat} {x y : Byte} {s : Screen}
    (h : ShowsCells (FontSheet.glyphRows M digit) x y s) (hd : digit < 16) (hr : r < 5) (hc : c < 4)
    (hpx : x.toNat % 64 + c < 64) (hpy : y.toNat % 32 + r < 32) :
    s.lit (x.toNat % 64 + c) (y.toNat % 32 + r) =
      (M.read (digit * 5 + r : Nat)).getLsbD (7 - c) := by
  obtain ⟨row, hrow, hlit⟩ := h r hr c hc hpx hpy
  cases (FontSheet.getElem?_glyphRows hd hr).symm.trans hrow
  rw [Bool.eq_iff_iff, hlit, FontSheet.getElem?_rowText _ hc]
  simp

/-- A machine with 5 in `V0`, and in memory the first row of its glyph. -/
def fifth : Machine := (trial []).poke 25 [0xA5]

/-- That row at column and row five: all three registers are `V0`. -/
theorem fifth_isDrawn : ∃ m' m'', fifth.execute (.loadGlyph 0) 0x200 none = .ok m' ∧
    m'.execute (.draw 0 0 5) 0x202 none = .ok m'' ∧ fifth.screen = .blank ∧
    (fifth.register 0).toNat < 16 ∧ m'.index.toNat = Font.glyphAddress (fifth.value 0) ∧
    m''.screen.lit 5 5 = true ∧ m''.screen.lit 6 5 = false := by
  have hx : fifth.register 0 = 5 := by decide +kernel
  have hlt : (fifth.register 0).toNat < 16 := by rw [hx]; decide
  have hbyte : fifth.memory.read ((5 * 5 + 0 : Nat) : Int) = 0xA5 := by decide +kernel
  obtain ⟨m', hload, -, haddress, hdraw⟩ := (glyph_isDrawn fifth 0 0 0).execute 0x200 none
  obtain ⟨m'', hdrawn, -, hshows⟩ := (hdraw rfl).execute 0x202 none
  have hcells : ShowsCells (FontSheet.glyphRows fifth.memory (5 : Nat)) 5 5 m''.screen := by
    have hcells := hshows hlt
    rwa [value, hx] at hcells
  have hleft := hcells.lit_eq (r := 0) (c := 0) (by decide) (by decide) (by decide) (by decide) (by decide)
  have hnext := hcells.lit_eq (r := 0) (c := 1) (by decide) (by decide) (by decide) (by decide) (by decide)
  rw [hbyte] at hleft hnext
  exact ⟨m', m'', hload, hdrawn, rfl, hlt, haddress.2 hlt, hleft, hnext⟩

/-- A machine with 16 in `V0`, and at the bottom of memory the row of a glyph. -/
def sixteenth : Machine := ((trial []).poke 0 [0xF0]).setRegister 0 16

/-- The font sheet writes sixteen as zero, but what is drawn are the blanks behind
the font. -/
theorem sixteenth_isNotDrawn : ∃ m' m'', sixteenth.execute (.loadGlyph 0) 0x200 none = .ok m' ∧
    m'.execute (.draw 0 0 5) 0x202 none = .ok m'' ∧ sixteenth.screen = .blank ∧
    m'.index.toNat ≠ Font.glyphAddress (sixteenth.value 0) ∧
    ¬ ShowsCells (FontSheet.glyphRows sixteenth.memory (sixteenth.value 0)) (sixteenth.register 0)
      (sixteenth.register 0) m''.screen := by
  let loaded : Machine := { sixteenth with index := 80 }
  have hdark : (loaded.drawSprite 0 0 5).screen.lit 16 16 = false := by decide +kernel
  have hbyte : sixteenth.memory.read ((0 * 5 + 0 : Nat) : Int) = 0xF0 := by decide +kernel
  have hx : sixteenth.register 0 = 16 := by decide +kernel
  refine ⟨loaded, loaded.drawSprite 0 0 5, rfl, rfl, rfl, by decide +kernel, fun hshows => ?_⟩
  have hcells : ShowsCells (FontSheet.glyphRows sixteenth.memory (0 : Nat)) 16 16
      (loaded.drawSprite 0 0 5).screen := by
    rw [hx] at hshows
    exact hshows
  have hlit := hcells.lit_eq (r := 0) (c := 0) (by decide) (by decide) (by decide) (by decide) (by decide)
  rw [hbyte] at hlit
  exact absurd (hlit.symm.trans hdark) (by decide)

end Chip8.Machine
