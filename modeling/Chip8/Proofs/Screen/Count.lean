/-
How many pixels are lit. The bits of a sprite lie over pixels of their own, so
the pixels that a drawing turns over are as many as its set bits that fall on
the screen: those that were lit go out, and the others are lit. A collision is
that some of them were.

The count is the number of positions where a pixel is seen to be lit, whatever
has been done to the machine before.
-/
import Chip8.Proofs.Plain.Operation
import Chip8.Proofs.Screen.Drawings
import Mathlib.Algebra.BigOperators.Group.Finset.Piecewise
import Mathlib.Data.Finset.Prod

namespace Chip8

/-- The elements of just one of two parts of a set, with those of both counted
twice, are as many as the elements of each part together. -/
theorem card_filter_xor {α : Type} (s : Finset α) (f g : α → Bool) :
    (s.filter fun a => (f a ^^ g a) = true).card + 2 * (s.filter fun a => (f a && g a) = true).card =
      (s.filter fun a => f a = true).card + (s.filter fun a => g a = true).card := by
  simp only [two_mul, Finset.card_filter, ← Finset.sum_add_distrib]
  refine Finset.sum_congr rfl fun a _ => ?_
  cases f a <;> cases g a <;> rfl

/-! ## Counting pixels -/

theorem count_map_range (f : Nat → Bool) (n : Nat) :
    ((List.range n).map f).count true = ((Finset.range n).filter fun k => f k = true).card := by
  have hfilter : (List.range n).filter ((· == true) ∘ f) = (List.range n).filter (f · = true) :=
    List.filter_congr fun k _ => by simp
  rw [List.count, List.countP_map, List.countP_eq_length_filter, hfilter]
  rfl

/-- Rows of equal width hold as many lit pixels as there are places in them with
one. -/
theorem count_rows (f : Nat → Nat → Bool) {w : Nat} (h : Nat) (hw : 0 < w) :
    ((List.range (h * w)).map fun k => f (k % w) (k / w)).count true =
      ((Finset.range w ×ˢ Finset.range h).filter fun p => f p.1 p.2 = true).card := by
  have hmod : ∀ {px} py, px < w → (py * w + px) % w = px := by
    intro px py hpx
    rw [Nat.mul_add_mod', Nat.mod_eq_of_lt hpx]
  have hdiv : ∀ {px} py, px < w → (py * w + px) / w = py := by
    intro px py hpx
    rw [Nat.mul_comm, Nat.mul_add_div hw, Nat.div_eq_of_lt hpx, Nat.add_zero]
  rw [count_map_range]
  refine Finset.card_nbij' (fun k => (k % w, k / w)) (fun p => p.2 * w + p.1) ?_ ?_ ?_ ?_
  · intro k hk
    simp only [Finset.coe_filter, Finset.mem_range, Set.mem_ofPred_eq] at hk
    simp only [Finset.coe_filter, Finset.mem_product, Finset.mem_range, Set.mem_ofPred_eq]
    exact ⟨⟨Nat.mod_lt k hw, Nat.div_lt_of_lt_mul (Nat.mul_comm h w ▸ hk.1)⟩, hk.2⟩
  · rintro ⟨px, py⟩ hp
    simp only [Finset.coe_filter, Finset.mem_product, Finset.mem_range, Set.mem_ofPred_eq] at hp
    obtain ⟨⟨hpx, hpy⟩, hlit⟩ := hp
    have hlt : py * w + px < h * w :=
      calc py * w + px < py * w + w := Nat.add_lt_add_left hpx _
        _ = (py + 1) * w := (Nat.succ_mul py w).symm
        _ ≤ h * w := Nat.mul_le_mul_right w hpy
    simp only [Finset.coe_filter, Finset.mem_range, Set.mem_ofPred_eq, hmod py hpx, hdiv py hpx]
    exact ⟨hlt, hlit⟩
  · intro k _
    exact Nat.div_add_mod' k w
  · rintro ⟨px, py⟩ hp
    simp only [Finset.coe_filter, Finset.mem_product, Finset.mem_range, Set.mem_ofPred_eq] at hp
    exact Prod.ext (hmod py hp.1.1) (hdiv py hp.1.1)

namespace Screen

/-- The positions on the screen, by column and row. -/
@[irreducible] def positions : Finset (Nat × Nat) := Finset.range 64 ×ˢ Finset.range 32

theorem mem_positions {p : Nat × Nat} : p ∈ positions ↔ p.1 < 64 ∧ p.2 < 32 := by
  unfold positions
  exact Finset.mem_product.trans (and_congr Finset.mem_range Finset.mem_range)

theorem litCount_eq (s : Screen) :
    s.litCount = (positions.filter fun p => s.lit p.1 p.2 = true).card := by
  have hrows : s.pixelRows.flatten = (List.range (32 * 64)).map fun k => s.lit (k % 64) (k / 64) :=
    s.flatten_pixelRows
  unfold positions
  rw [litCount, hrows]
  exact count_rows s.lit 32 (by decide)

end Screen

/-! ## Bits of a drawing -/

namespace Drawing

/-- The set bits of a drawing that fall on the screen, by column and row of the
sprite, the leftmost column being bit 7. -/
def visibleBits (d : Drawing) : Finset (Nat × Nat) :=
  (Finset.range 8 ×ˢ Finset.range d.rows.length).filter fun b =>
    (d.rows.getD b.2 0).testBit (7 - b.1) = true ∧ d.x % 64 + b.1 < 64 ∧ d.y % 32 + b.2 < 32

/-- The position under a bit; no two bits lie over the same. -/
def place (d : Drawing) : Nat × Nat ↪ Nat × Nat where
  toFun b := (Screen.startColumn d.x + b.1, Screen.startRow d.y + b.2)
  inj' := by
    rintro ⟨c, r⟩ ⟨c', r'⟩ h
    simpa using h

theorem place_apply (d : Drawing) (b : Nat × Nat) :
    d.place b = (Screen.startColumn d.x + b.1, Screen.startRow d.y + b.2) := rfl

/-- Under a bit of the sprite a pixel is set if the bit is. -/
theorem sets_place (d : Drawing) (b : Nat × Nat) : d.sets (d.place b).1 (d.place b).2 =
    (decide (b.1 < 8 ∧ b.2 < d.rows.length) && (d.rows.getD b.2 0).testBit (7 - b.1)) := by
  obtain ⟨c, r⟩ := b
  have hcolumn : ((Screen.startColumn d.x + c : Nat) : Int) - d.x % 64 = c := by
    have := Screen.startColumn_cast d.x
    omega
  have hrow : ((Screen.startRow d.y + r : Nat) : Int) - d.y % 32 = r := by
    have := Screen.startRow_cast d.y
    omega
  have hbit : (7 - (c : Int)).toNat = 7 - c := by omega
  have hinside : (((0 : Int) ≤ c ∧ (c : Int) < 8) ∧ (0 : Int) ≤ r ∧ (r : Int) < d.rows.length) ↔
      c < 8 ∧ r < d.rows.length := by omega
  simp only [sets, Screen.sets, place_apply, hcolumn, hrow, hbit, hinside,
    Int.toNat_natCast]

/-- A pixel that is set lies under a bit. -/
theorem exists_place_of_sets {d : Drawing} {p : Nat × Nat} (h : d.sets p.1 p.2 = true) :
    ∃ b, d.place b = p := by
  obtain ⟨px, py⟩ := p
  simp only [sets, Screen.sets, Bool.and_eq_true, decide_eq_true_eq] at h
  obtain ⟨⟨⟨hcolumn, -⟩, hrow, -⟩, -⟩ := h
  rw [← Screen.startColumn_cast] at hcolumn
  rw [← Screen.startRow_cast] at hrow
  refine ⟨(px - Screen.startColumn d.x, py - Screen.startRow d.y), ?_⟩
  simp only [place_apply, Prod.mk.injEq]
  omega

/-- A bit falls on the screen if its position is one of the screen. -/
theorem place_mem_positions (d : Drawing) (b : Nat × Nat) : d.place b ∈ Screen.positions ↔
    d.x % 64 + b.1 < 64 ∧ d.y % 32 + b.2 < 32 := by
  have hx := Screen.startColumn_cast d.x
  have hy := Screen.startRow_cast d.y
  simp only [Screen.mem_positions, place_apply]
  omega

/-- A bit is visible if its position is on the screen and set. -/
theorem mem_visibleBits {d : Drawing} {b : Nat × Nat} : b ∈ d.visibleBits ↔
    d.place b ∈ Screen.positions ∧ d.sets (d.place b).1 (d.place b).2 = true := by
  rw [visibleBits, sets_place, place_mem_positions]
  simp only [Finset.mem_filter, Finset.mem_product, Finset.mem_range, Bool.and_eq_true,
    decide_eq_true_eq]
  tauto

/-- What a drawing sets are the positions under its visible bits. -/
theorem map_visibleBits (d : Drawing) :
    d.visibleBits.map d.place = Screen.positions.filter fun p => d.sets p.1 p.2 = true := by
  ext p
  rw [Finset.mem_map, Finset.mem_filter]
  constructor
  · rintro ⟨b, hb, rfl⟩
    exact mem_visibleBits.1 hb
  · rintro ⟨hp, hset⟩
    obtain ⟨b, rfl⟩ := exists_place_of_sets hset
    exact ⟨b, mem_visibleBits.2 ⟨hp, hset⟩, rfl⟩

end Drawing

namespace Screen

/-- The visible bits of a drawing that fall on a lit pixel. -/
def hitBits (s : Screen) (d : Drawing) : Finset (Nat × Nat) :=
  d.visibleBits.filter fun b => s.pixel (d.x % 64 + b.1) (d.y % 32 + b.2) = .ok true

theorem pixel_eq_ok_iff {s : Screen} {x y : Int} : s.pixel x y = .ok true ↔
    ((0 ≤ x ∧ x < 64) ∧ 0 ≤ y ∧ y < 32) ∧ s.lit x.toNat y.toNat = true := by
  rw [pixel, ← contains_iff]
  split
  next h => simp [h]
  next h => simp [h]

/-- A visible bit falls on a lit pixel if the position under it is lit. -/
theorem pixel_place_iff {s : Screen} {d : Drawing} {b : Nat × Nat} (hb : b ∈ d.visibleBits) :
    s.pixel (d.x % 64 + b.1) (d.y % 32 + b.2) = .ok true ↔
      s.lit (d.place b).1 (d.place b).2 = true := by
  have hcolumn : (d.x % 64 + b.1).toNat = (d.place b).1 := by
    have := startColumn_cast d.x
    rw [Drawing.place_apply]
    omega
  have hrow : (d.y % 32 + b.2).toNat = (d.place b).2 := by
    have := startRow_cast d.y
    rw [Drawing.place_apply]
    omega
  have hplace := (d.place_mem_positions b).1 (Drawing.mem_visibleBits.1 hb).1
  rw [pixel_eq_ok_iff, hcolumn, hrow]
  exact and_iff_right (by omega)

/-- What a drawing puts out are the positions under its bits that fall on a lit
pixel. -/
theorem map_hitBits (s : Screen) (d : Drawing) : (s.hitBits d).map d.place =
    positions.filter fun p => (s.lit p.1 p.2 && d.sets p.1 p.2) = true := by
  have hlit : s.hitBits d =
      d.visibleBits.filter ((fun p => s.lit p.1 p.2 = true) ∘ d.place) :=
    Finset.filter_congr fun b hb => pixel_place_iff hb
  rw [hlit, ← Finset.filter_map, d.map_visibleBits, Finset.filter_filter]
  exact Finset.filter_congr fun p _ => by rw [Bool.and_eq_true, and_comm]

/-! ## What a drawing adds -/

/-- The visible bits are lit, but for those that put a pixel out. -/
theorem litCount_drawOne (s : Screen) (d : Drawing) :
    (s.drawOne d).litCount + 2 * (s.hitBits d).card = s.litCount + d.visibleBits.card := by
  have hdrawn : (s.drawOne d).litCount =
      (positions.filter fun p => (s.lit p.1 p.2 ^^ d.sets p.1 p.2) = true).card := by
    rw [litCount_eq]
    refine congrArg Finset.card (Finset.filter_congr fun p hp => ?_)
    obtain ⟨hpx, hpy⟩ := mem_positions.1 hp
    rw [lit_drawOne s d hpx hpy]
  have hhit : (s.hitBits d).card =
      (positions.filter fun p => (s.lit p.1 p.2 && d.sets p.1 p.2) = true).card := by
    rw [← map_hitBits, Finset.card_map]
  have hvisible : d.visibleBits.card =
      (positions.filter fun p => d.sets p.1 p.2 = true).card := by
    rw [← d.map_visibleBits, Finset.card_map]
  rw [hdrawn, hhit, hvisible, litCount_eq]
  exact card_filter_xor ..

/-- A drawing collides if a visible bit of it falls on a lit pixel. -/
theorem hits_iff_card {s : Screen} {d : Drawing} : s.hits d = true ↔ 0 < (s.hitBits d).card := by
  have hnonempty : 0 < (s.hitBits d).card ↔
      ∃ p, p ∈ positions ∧ (s.lit p.1 p.2 && d.sets p.1 p.2) = true := by
    rw [Finset.card_pos, ← Finset.map_nonempty (f := d.place), map_hitBits]
    simp only [Finset.Nonempty, Finset.mem_filter]
  rw [hnonempty, hits, collides_iff]
  simp only [covers_eq_sets, Bool.and_eq_true, mem_positions]
  constructor
  · rintro ⟨px, hpx, py, hpy, hlit, hset⟩
    exact ⟨(px, py), ⟨hpx, hpy⟩, hlit, hset⟩
  · rintro ⟨⟨px, py⟩, ⟨hpx, hpy⟩, hlit, hset⟩
    exact ⟨px, hpx, py, hpy, hlit, hset⟩

/-- What a drawing does to the number of lit pixels, told by its visible bits and
by those of them that fall on a lit pixel. -/
structure Accounts (s : Screen) (d : Drawing) : Prop where
  /-- The loops over rows and columns draw it. -/
  drawn : Plain.drawRows (d.x % 64) (d.y % 32) d.rows (s.pixelRows.flatten, false) =
    some ((s.drawOne d).pixelRows.flatten, s.hits d)
  litCount : ((s.drawOne d).litCount : Int) =
    s.litCount + d.visibleBits.card - 2 * (s.hitBits d).card
  hits : s.hits d = true ↔ 0 < (s.hitBits d).card
  misses : s.hits d = false ↔ (s.drawOne d).litCount = s.litCount + d.visibleBits.card

theorem accounts (s : Screen) (d : Drawing) : s.Accounts d := by
  have hcount := s.litCount_drawOne d
  have hhits : s.hits d = true ↔ 0 < (s.hitBits d).card := hits_iff_card
  refine ⟨Plain.drawRows_flatten s d.x d.y d.rows, by omega, hhits, ?_⟩
  rw [← Bool.not_eq_true, hhits]
  omega

end Screen

/-! ## The count at all times -/

/-- The pixel at a position. -/
def Plain.getPixel (p : Plain) (x y : Int) : Option (Except Screen.OffScreen Bool) :=
  if 0 ≤ x ∧ x < 64 ∧ 0 ≤ y ∧ y < 32 then (at? p.pixels (y * 64 + x)).map .ok
  else some (.error ⟨x, y⟩)

theorem Machine.plain_getPixel (m : Machine) (x y : Int) :
    m.plain.getPixel x y = some (m.screen.pixel x y) := by
  by_cases hc : (0 ≤ x ∧ x < 64) ∧ 0 ≤ y ∧ y < 32
  · obtain ⟨⟨hx, hx'⟩, hy, hy'⟩ := hc
    obtain ⟨px, rfl⟩ := Int.eq_ofNat_of_zero_le hx
    obtain ⟨py, rfl⟩ := Int.eq_ofNat_of_zero_le hy
    have hcontains : Screen.contains px py = true := Screen.contains_iff.2 ⟨⟨hx, hx'⟩, hy, hy'⟩
    rw [Plain.getPixel, if_pos ⟨hx, hx', hy, hy'⟩, plain_pixels,
      Plain.at?_canvas _ (by omega) (by omega), Screen.pixel, if_pos hcontains]
    rfl
  · have hoff : ¬ Screen.contains x y = true := mt Screen.contains_iff.1 hc
    have hc' : ¬ (0 ≤ x ∧ x < 64 ∧ 0 ≤ y ∧ y < 32) := by omega
    rw [Plain.getPixel, if_neg hc', Screen.pixel, if_neg hoff]

/-- The positions of a screen where a pixel is seen to be lit. -/
def Screen.litPositions (s : Screen) : Finset (Nat × Nat) :=
  positions.filter fun c => s.pixel c.1 c.2 = .ok true

/-- The same in plain numbers. -/
def Plain.litPositions (p : Plain) : Finset (Nat × Nat) :=
  Screen.positions.filter fun c => p.getPixel c.1 c.2 = some (.ok true)

theorem Screen.litCount_eq_card (s : Screen) : s.litCount = s.litPositions.card := by
  rw [litCount_eq]
  refine congrArg Finset.card (Finset.filter_congr fun c hc => ?_)
  obtain ⟨hx, hy⟩ := mem_positions.1 hc
  rw [pixel_eq_ok_iff, Int.toNat_natCast, Int.toNat_natCast]
  exact (and_iff_right (by omega)).symm

theorem Machine.litPositions_plain (m : Machine) : m.plain.litPositions = m.screen.litPositions :=
  Finset.filter_congr fun c _ => by rw [plain_getPixel, Option.some.injEq]

/-- A pixel beyond the edges cannot be set, and trying changes nothing. -/
theorem Plain.act_setPixel_of_off (p : Plain) {x y : Int} (h : ¬ (0 ≤ x ∧ x < 64 ∧ 0 ≤ y ∧ y < 32))
    (on : Bool) : p.act (.setPixel x y on) = some (some (.offScreen ⟨x, y⟩), p) := by
  rw [act, setPixel, if_neg h]
  rfl

/-- **The lit pixels are accounted for.** Whatever is drawn on whatever screen, the
number of lit pixels grows by the set bits that fall on the screen, less twice
those that fall on a lit pixel, and it collides if there are any of these; so it
does not collide exactly if the number grows by all of them. The number is
always that of the positions where a pixel is seen to be lit, also in plain
numbers, after any operations, of which those that set a pixel beyond the edges
are refused and change nothing. -/
theorem litCount_isAccounted :
    (∀ (s : Screen) (d : Drawing), s.Accounts d) ∧
    (∀ s : Screen, s.litCount = s.litPositions.card) ∧
    ∀ p : Plain, p.WellFormed →
      (∀ ops : List Operation, ∃ q, p.acts ops = some q ∧ q.WellFormed ∧
        q.pixels.count true = q.litPositions.card) ∧
      ∀ (x y : Int) (on : Bool), ¬ (0 ≤ x ∧ x < 64 ∧ 0 ≤ y ∧ y < 32) →
        p.act (.setPixel x y on) = some (some (.offScreen ⟨x, y⟩), p) := by
  refine ⟨Screen.accounts, Screen.litCount_eq_card,
    fun p hp => ⟨fun ops => ?_, fun x y on h => p.act_setPixel_of_off h on⟩⟩
  obtain ⟨q, hacts, hq⟩ := Plain.wellFormed_of_acts hp ops
  obtain ⟨m, rfl⟩ := Plain.exists_of_wellFormed hq
  have hcount : m.plain.pixels.count true = m.plain.litPositions.card := by
    rw [m.litPositions_plain]
    exact m.screen.litCount_eq_card
  exact ⟨m.plain, hacts, hq, hcount⟩

/-- Two full rows from the last four columns of the last row on: four bits are on
the screen. -/
example : (Drawing.visibleBits ⟨-4, 31, [-1, 0xFF]⟩).card = 4 := by decide

end Chip8
