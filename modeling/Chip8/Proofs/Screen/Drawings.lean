/-
Sprites drawn one over another. Each turns over the pixels that it sets, so in
the end a pixel has been turned over as often as there are sprites that set it,
whatever their order, and two that set the same pixels might as well not have
been drawn. Only which of them collides depends on the order.

The same holds of the loops that draw them pixel by pixel (`Plain.drawEach`).
-/
import Chip8.Proofs.Screen.Sprite

namespace Chip8

/-- A sprite, its rows being any integers, and where it is drawn. -/
structure Drawing where
  x : Int
  y : Int
  rows : List Int
deriving DecidableEq, Repr

namespace Drawing

/-- Whether a drawing sets a pixel. -/
def sets (d : Drawing) (px py : Nat) : Bool := Screen.sets d.x d.y d.rows px py

/-- Two drawings that start at the same place of the screen, and whose rows have
the same low eight bits. -/
structure Same (d e : Drawing) : Prop where
  x : d.x % 64 = e.x % 64
  y : d.y % 32 = e.y % 32
  rows : d.rows.map (· % 256) = e.rows.map (· % 256)

theorem map_ofInt_of_map_emod {rows rows' : List Int}
    (h : rows.map (· % 256) = rows'.map (· % 256)) :
    rows.map (BitVec.ofInt 8) = rows'.map (BitVec.ofInt 8) := by
  have hbyte : ∀ r : Int, BitVec.ofInt 8 r = BitVec.ofInt 8 (r % 256) := by
    intro r
    apply BitVec.eq_of_toNat_eq
    rw [BitVec.toNat_ofInt, BitVec.toNat_ofInt]
    exact congrArg Int.toNat (Int.emod_emod_of_dvd r (dvd_refl 256)).symm
  calc rows.map (BitVec.ofInt 8)
      = (rows.map (· % 256)).map (BitVec.ofInt 8) := by
        rw [List.map_map]
        exact List.map_congr_left fun r _ => hbyte r
    _ = (rows'.map (· % 256)).map (BitVec.ofInt 8) := by rw [h]
    _ = rows'.map (BitVec.ofInt 8) := by
        rw [List.map_map]
        exact List.map_congr_left fun r _ => (hbyte r).symm

theorem Same.sets_eq {d e : Drawing} (h : d.Same e) : d.sets = e.sets := by
  funext px py
  have hx : Screen.startColumn d.x = Screen.startColumn e.x := congrArg Int.toNat h.x
  have hy : Screen.startRow d.y = Screen.startRow e.y := congrArg Int.toNat h.y
  rw [sets, sets, ← Screen.covers_eq_sets, ← Screen.covers_eq_sets, hx, hy,
    map_ofInt_of_map_emod h.rows]

end Drawing

/-- Drawings pixel by pixel into a list of flags, one after another. -/
def Plain.drawEach (pixels : List Bool) : List Drawing → Option (List Bool)
  | [] => some pixels
  | d :: ds => do
    let (pixels, _) ← Plain.drawRows (d.x % 64) (d.y % 32) d.rows (pixels, false)
    Plain.drawEach pixels ds

namespace Screen

variable {px py : Nat}

/-- The screen after a drawing. -/
def drawOne (s : Screen) (d : Drawing) : Screen := s.draw d.x d.y (d.rows.map (BitVec.ofInt 8))

/-- The screen after drawings in order. -/
def drawAll (s : Screen) (ds : List Drawing) : Screen := ds.foldl drawOne s

theorem lit_drawOne (s : Screen) (d : Drawing) (hpx : px < 64) (hpy : py < 32) :
    (s.drawOne d).lit px py = (s.lit px py ^^ d.sets px py) := by
  rw [drawOne, lit_draw hpx hpy, covers_eq_sets, Drawing.sets]

/-- What is drawn twice is gone again. -/
@[simp] theorem drawOne_drawOne (s : Screen) (d : Drawing) : (s.drawOne d).drawOne d = s := by
  refine eq_of_lit fun px hpx py hpy => ?_
  rw [lit_drawOne _ d hpx hpy, lit_drawOne s d hpx hpy, Bool.xor_assoc, Bool.xor_self,
    Bool.xor_false]

/-- Whether a drawing collides. -/
def hits (s : Screen) (d : Drawing) : Bool := s.collides d.x d.y (d.rows.map (BitVec.ofInt 8))

/-- A drawing collides if it puts out a pixel. -/
theorem hits_iff {s : Screen} {d : Drawing} : s.hits d = true ↔
    ∃ px < 64, ∃ py < 32, s.lit px py = true ∧ (s.drawOne d).lit px py = false := by
  unfold hits
  simp only [collides_iff, covers_eq_sets]
  constructor
  · rintro ⟨px, hpx, py, hpy, hlit, hset⟩
    refine ⟨px, hpx, py, hpy, hlit, ?_⟩
    rw [lit_drawOne s d hpx hpy, hlit, Drawing.sets, hset, Bool.xor_self]
  · rintro ⟨px, hpx, py, hpy, hlit, hout⟩
    refine ⟨px, hpx, py, hpy, hlit, ?_⟩
    rw [lit_drawOne s d hpx hpy, hlit, Bool.true_xor, Bool.not_eq_false'] at hout
    exact hout

/-- Drawn once more it collides if it had lit a pixel. -/
theorem hits_drawOne_iff {s : Screen} {d : Drawing} : (s.drawOne d).hits d = true ↔
    ∃ px < 64, ∃ py < 32, s.lit px py = false ∧ (s.drawOne d).lit px py = true := by
  rw [hits_iff, drawOne_drawOne]
  exact exists_congr fun px => and_congr_right fun _ => exists_congr fun py =>
    and_congr_right fun _ => and_comm

/-- A sprite without rows does nothing. -/
theorem drawOne_of_rows_nil {d : Drawing} (h : d.rows = []) (s : Screen) :
    s.drawOne d = s ∧ s.hits d = false := by
  have hsame : s.drawOne d = s := by
    refine eq_of_lit fun px hpx py hpy => ?_
    have hset : d.sets px py = false := by
      rw [Drawing.sets, ← covers_eq_sets, h]
      simp [covers]
    rw [lit_drawOne s d hpx hpy, hset, Bool.xor_false]
  refine ⟨hsame, Bool.eq_false_iff.2 fun hhits => ?_⟩
  obtain ⟨px, -, py, -, hlit, hout⟩ := hits_iff.1 hhits
  rw [hsame, hlit] at hout
  cases hout

/-- A pixel has been turned over as often as there are drawings that set it. -/
theorem lit_drawAll (s : Screen) (ds : List Drawing) (hpx : px < 64) (hpy : py < 32) :
    (s.drawAll ds).lit px py =
      (s.lit px py ^^ decide (ds.countP (·.sets px py) % 2 = 1)) := by
  induction ds generalizing s with
  | nil => simp [drawAll]
  | cons d ds ih =>
    have hrest : (s.drawAll (d :: ds)).lit px py = ((s.drawOne d).drawAll ds).lit px py := rfl
    rw [hrest, ih, lit_drawOne s d hpx hpy, List.countP_cons]
    cases d.sets px py with
    | false => simp
    | true =>
      have hflip : (ds.countP (·.sets px py) + 1) % 2 = 1 ↔
          ¬ ds.countP (·.sets px py) % 2 = 1 := by omega
      simp only [if_true, hflip, decide_not, Bool.xor_true, Bool.not_xor, Bool.xor_not]

theorem drawEach_flatten (s : Screen) (ds : List Drawing) :
    Plain.drawEach s.pixelRows.flatten ds = some (s.drawAll ds).pixelRows.flatten := by
  induction ds generalizing s with
  | nil => rfl
  | cons d ds ih =>
    rw [Plain.drawEach, Plain.drawRows_flatten]
    exact ih (s.drawOne d)

/-- What drawings make of a screen is told by how often each pixel is set. -/
theorem drawAll_eq_of_countP {ds es : List Drawing}
    (h : ∀ px py, ds.countP (·.sets px py) % 2 = es.countP (·.sets px py) % 2) (s : Screen) :
    s.drawAll ds = s.drawAll es := by
  refine eq_of_lit fun px hpx py hpy => ?_
  rw [lit_drawAll s ds hpx hpy, lit_drawAll s es hpx hpy, h]

/-- **The order of drawings does not matter.** Any two orders of the same drawings
leave the same screen, whose pixels are those that the loops over rows and
columns leave. Two drawings that are the same take each other back, whatever is
drawn before, between and after them. So drawings that are all repeated leave
the screen as it was. -/
theorem drawAll_isUnordered (s : Screen) :
    (∀ ds : List Drawing,
      Plain.drawEach s.pixelRows.flatten ds = some (s.drawAll ds).pixelRows.flatten) ∧
    (∀ ds es : List Drawing, ds.Perm es → s.drawAll ds = s.drawAll es) ∧
    (∀ (before between later : List Drawing) (d e : Drawing), d.Same e →
      s.drawAll (before ++ d :: between ++ e :: later) = s.drawAll (before ++ between ++ later)) ∧
    ∀ ds : List Drawing, s.drawAll (ds ++ ds) = s := by
  refine ⟨drawEach_flatten s, fun ds es h => ?_, fun before between later d e h => ?_, fun ds => ?_⟩
  · exact drawAll_eq_of_countP (fun px py => by rw [h.countP_eq]) s
  · refine drawAll_eq_of_countP (fun px py => ?_) s
    simp only [List.countP_append, List.countP_cons, h.sets_eq]
    omega
  · have htwice : s.drawAll (ds ++ ds) = s.drawAll [] := by
      refine drawAll_eq_of_countP (fun px py => ?_) s
      rw [List.countP_append, List.countP_nil]
      omega
    exact htwice

/-- A bar in the corner, a dot in it, and the dot once more, by other numbers. -/
def corner : List Drawing := [⟨0, 0, [0xF0]⟩, ⟨1, 0, [0x80]⟩, ⟨-63, 64, [-0x80]⟩]

theorem corner_isUnordered :
    corner.Perm corner.reverse ∧ blank.drawAll corner = blank.drawAll corner.reverse ∧
    Drawing.Same ⟨1, 0, [0x80]⟩ ⟨-63, 64, [-0x80]⟩ ∧
    blank.drawAll corner = blank.drawAll [⟨0, 0, [0xF0]⟩] := by
  have hperm : corner.Perm corner.reverse := corner.reverse_perm.symm
  have hsame : Drawing.Same ⟨1, 0, [0x80]⟩ ⟨-63, 64, [-0x80]⟩ := ⟨by decide, by decide, by decide⟩
  obtain ⟨-, horder, hcancel, -⟩ := drawAll_isUnordered blank
  exact ⟨hperm, horder _ _ hperm, hsame, hcancel [⟨0, 0, [0xF0]⟩] [] [] _ _ hsame⟩

end Screen
end Chip8
