/-
A screen against its renderings. A dot of its picture is the pixel it lies in
and the cell of the text there (`ShownBy`), whatever enlarges the picture, as
long as it puts a square of dots in place of every dot (`Replicates`); and a
text with cells of one width has the pixels in it (`eq_of_text`).
-/
import Chip8.Proofs.Picture.Look
import Chip8.Proofs.Text

namespace Chip8

namespace Picture

variable {p : Picture} {factor x y : Nat}

/-! ## Enlarging -/

/-- A picture is another one with a square of `factor` by `factor` dots in place
of every dot. -/
structure EnlargedBy (p : Picture) (factor : Nat) (q : Picture) : Prop where
  width : q.width = p.width * factor
  height : q.height = p.height * factor
  colour? : ∀ x < q.width, ∀ y < q.height, q.colour? x y = p.colour? (x / factor) (y / factor)

/-- A function enlarges every picture. -/
def Replicates (enlarge : Picture → Nat → Except Error Picture) : Prop :=
  ∀ p factor, 1 < factor → ∃ q, enlarge p factor = .ok q ∧ p.EnlargedBy factor q

theorem enlargedBy_one (p : Picture) : p.EnlargedBy 1 p where
  width := (Nat.mul_one _).symm
  height := (Nat.mul_one _).symm
  colour? x _ y _ := by rw [Nat.div_one, Nat.div_one]

theorem colour?_stretch (p : Picture) (hfactor : 0 < factor) (x y : Nat) :
    (p.stretch factor).colour? x y = p.colour? (x / factor) (y / factor) := by
  simp only [colour?, stretch, Runs.get?_stretch hfactor, Runs.get?_map]
  cases p.rows.get? (y / factor) with
  | none => rfl
  | some row => exact Runs.get?_stretch hfactor row x

theorem enlargedBy_stretch (p : Picture) (hfactor : 0 < factor) :
    p.EnlargedBy factor (p.stretch factor) where
  width := rfl
  height := rfl
  colour? x _ y _ := colour?_stretch p hfactor x y

/-- Enlarging without limits. -/
def replicate (p : Picture) (factor : Nat) : Except Error Picture := .ok (p.stretch factor)

theorem replicates_replicate : Replicates replicate :=
  fun p _ hfactor => ⟨_, rfl, p.enlargedBy_stretch (Nat.lt_of_succ_lt hfactor)⟩

theorem enlarge_of_le (hwidth : p.width * factor ≤ widthLimit)
    (hdots : p.width * factor * (p.height * factor) ≤ dotLimit) :
    p.enlarge factor = p.replicate factor := by
  have hwide : ¬ widthLimit < (p.stretch factor).width := Nat.not_lt.2 hwidth
  have hlarge : ¬ dotLimit < (p.stretch factor).width * (p.stretch factor).height := Nat.not_lt.2 hdots
  simp only [enlarge, if_neg hwide, if_neg hlarge, replicate]

/-! ## Screens -/

theorem colour?_ofScreen (s : Screen) (colours : Scheme) (hx : x < 64) (hy : y < 32) :
    (ofScreen s colours).colour? x y = some (colours.colour (s.lit x y)) := by
  have hrow : (s.pixelRows.map fun row => Runs.ofList (row.map colours.colour))[y]? =
      some (Runs.ofList ((s.pixelRow y).map colours.colour)) := by
    simp [Screen.pixelRows, Screen.height, hy]
  have hdot : ((s.pixelRow y).map colours.colour)[x]? = some (colours.colour (s.lit x y)) := by
    simp [Screen.pixelRow, Screen.width, hx]
  rw [colour?, ofScreen, Runs.get?_ofList, hrow, Option.bind_some, Runs.get?_ofList, hdot]

end Picture

theorem Scheme.foreground_ne_background {name : String} {colours : Scheme}
    (h : Scheme.named? name = some colours) : colours.foreground ≠ colours.background := by
  obtain ⟨before, after, hall, -⟩ := List.lookup_eq_some_iff.1 h
  have hmem : (name, colours) ∈ Scheme.all := by simp [hall]
  simp only [Scheme.all, List.mem_cons, Prod.mk.injEq, List.not_mem_nil, or_false] at hmem
  rcases hmem with ⟨-, rfl⟩ | ⟨-, rfl⟩ <;> decide

namespace Screen

variable {s : Screen} {enlarge : Picture → Nat → Except Picture.Error Picture} {scale : Int}
  {name : String} {colours : Scheme} {p : Picture}

/-! ## Pixels and cells -/

theorem pixel_eq_true_iff (s : Screen) {x y : Nat} (hx : x < 64) (hy : y < 32) :
    s.pixel x y = .ok true ↔ s.lit x y = true := by
  have hon : contains x y = true := contains_iff.2 (by omega)
  rw [pixel, if_pos hon, Except.ok.injEq, Int.toNat_natCast, Int.toNat_natCast]

theorem cell_eq_iff (s : Screen) {x y : Nat} (hx : x < 64) (hy : y < 32) :
    (∃ row, (s.textRows "#" " ")[y]? = some row ∧ row.toList[x]? = some '#') ↔ s.lit x y = true := by
  have hcell : ∀ lit : Bool, (if lit then "#" else " ").toList = [if lit then '#' else ' '] := by decide
  have hrow : (s.textRows "#" " ")[y]? =
      some (String.join ((List.range width).map fun x => if s.lit x y then "#" else " ")) := by
    simp [textRows_eq, height, hy]
  simp only [hrow, Option.some.injEq, exists_eq_left', String.toList_join, List.flatMap_map, hcell,
    ← List.map_eq_flatMap, List.getElem?_map, List.getElem?_range, width, hx, Option.map_some]
  cases s.lit x y <;> simp

/-! ## Texts -/

/-- A text with two different cells of one width has the pixels in it. -/
theorem eq_of_text {t : Screen} {on off : String} (hne : on ≠ off) (hwidth : on.length = off.length)
    (h : s.text on off = t.text on off) : s = t := by
  have hcell : ∀ lit lit' : Bool,
      (if lit then on else off).length = (if lit' then on else off).length := by
    intro lit lit'
    cases lit <;> cases lit' <;> simp [hwidth]
  refine eq_of_lit fun x hx y hy => ?_
  rw [text, text, textRows_eq, textRows_eq] at h
  -- rows are told apart by their length, which a newline in a cell does not change
  have hrow := Text.eq_of_intercalate_map
    (fun y => Text.length_join_map fun x => hcell (s.lit x y) (t.lit x y)) h y (List.mem_range.2 hy)
  have hpixel := Text.eq_of_join_map (fun x => hcell (s.lit x y) (t.lit x y)) hrow x
    (List.mem_range.2 hx)
  cases hs : s.lit x y <;> cases ht : t.lit x y <;> simp_all

/-! ## Pictures -/

/-- A picture of a screen: a square of `scale` by `scale` dots for every pixel, in
the foreground where the pixel is lit and the text has `#`, else in the background. -/
structure ShownBy (s : Screen) (scale : Nat) (colours : Scheme) (p : Picture) : Prop where
  width : p.width = 64 * scale
  height : p.height = 32 * scale
  pixel : ∀ x < p.width, ∀ y < p.height, p.colour? x y = some colours.foreground ↔
    s.pixel (x / scale : Nat) (y / scale : Nat) = .ok true
  cell : ∀ x < p.width, ∀ y < p.height, p.colour? x y = some colours.foreground ↔
    ∃ row, (s.textRows "#" " ")[y / scale]? = some row ∧ row.toList[x / scale]? = some '#'
  background : ∀ x < p.width, ∀ y < p.height, p.colour? x y ≠ some colours.foreground →
    p.colour? x y = some colours.background

theorem shownBy_of_enlargedBy {factor : Nat} (hne : colours.foreground ≠ colours.background)
    (h : (Picture.ofScreen s colours).EnlargedBy factor p) : s.ShownBy factor colours p := by
  have hinside : ∀ x < p.width, ∀ y < p.height, x / factor < 64 ∧ y / factor < 32 := by
    intro x hx y hy
    rw [h.width, Nat.mul_comm] at hx
    rw [h.height, Nat.mul_comm] at hy
    exact ⟨Nat.div_lt_of_lt_mul hx, Nat.div_lt_of_lt_mul hy⟩
  have hcolour : ∀ x < p.width, ∀ y < p.height,
      p.colour? x y = some (colours.colour (s.lit (x / factor) (y / factor))) := by
    intro x hx y hy
    obtain ⟨hx', hy'⟩ := hinside x hx y hy
    rw [h.colour? x hx y hy, Picture.colour?_ofScreen s colours hx' hy']
  have hlit : ∀ x < p.width, ∀ y < p.height, p.colour? x y = some colours.foreground ↔
      s.lit (x / factor) (y / factor) = true := by
    intro x hx y hy
    rw [hcolour x hx y hy, Scheme.colour]
    cases s.lit (x / factor) (y / factor) <;> simp [hne.symm]
  refine ⟨h.width, h.height, fun x hx y hy => ?_, fun x hx y hy => ?_, fun x hx y hy hdark => ?_⟩
  · obtain ⟨hx', hy'⟩ := hinside x hx y hy
    exact (hlit x hx y hy).trans (s.pixel_eq_true_iff hx' hy').symm
  · obtain ⟨hx', hy'⟩ := hinside x hx y hy
    exact (hlit x hx y hy).trans (s.cell_eq_iff hx' hy').symm
  · rw [Ne, hlit x hx y hy, Bool.not_eq_true] at hdark
    rw [hcolour x hx y hy, hdark]
    rfl

theorem pictureBy_of_named (hscale : 1 ≤ scale) (hname : Scheme.named? name = some colours) :
    s.pictureBy enlarge scale name =
      if 1 < scale then enlarge (Picture.ofScreen s colours) scale.toNat
      else .ok (Picture.ofScreen s colours) := by
  have : ¬ scale < 1 := by omega
  simp only [pictureBy, if_neg this, hname]

theorem exists_pictureBy (henlarge : Picture.Replicates enlarge) (hscale : 1 ≤ scale)
    (hname : Scheme.named? name = some colours) :
    ∃ p, s.pictureBy enlarge scale name = .ok p ∧ s.ShownBy scale.toNat colours p := by
  have hne := Scheme.foreground_ne_background hname
  rw [pictureBy_of_named hscale hname]
  split
  next h =>
    obtain ⟨p, hp, henlarged⟩ := henlarge (Picture.ofScreen s colours) scale.toNat (by omega)
    exact ⟨p, hp, shownBy_of_enlargedBy hne henlarged⟩
  next h =>
    have hone : scale.toNat = 1 := by omega
    rw [hone]
    exact ⟨_, rfl, shownBy_of_enlargedBy hne (Picture.enlargedBy_one _)⟩

theorem pictureBy_eq_error_iff (henlarge : Picture.Replicates enlarge) {e : Picture.Error} :
    s.pictureBy enlarge scale name = .error e ↔
      (scale < 1 ∧ e = .scaleTooSmall scale) ∨
        1 ≤ scale ∧ Scheme.named? name = none ∧ e = .unknownScheme name := by
  by_cases hscale : scale < 1
  · have : ¬ 1 ≤ scale := by omega
    simp [pictureBy, hscale, this, eq_comm]
  · have hle : 1 ≤ scale := by omega
    cases hname : Scheme.named? name with
    | none => simp [pictureBy, hscale, hle, hname, eq_comm]
    | some colours =>
      obtain ⟨p, hp, -⟩ := exists_pictureBy (s := s) henlarge hle hname
      simp [hp, hscale]

/-- As far as a picture is held in memory, the one that is made has no limits. -/
theorem picture_eq_pictureBy (s : Screen) (hscale : scale ≤ 1448) (name : String) :
    s.picture scale name = s.pictureBy Picture.replicate scale name := by
  unfold picture pictureBy
  have henlarge : ∀ colours, (Picture.ofScreen s colours).enlarge scale.toNat =
      (Picture.ofScreen s colours).replicate scale.toNat := by
    intro colours
    have hfactor : scale.toNat ≤ 1448 := by omega
    have hwidth : 64 * scale.toNat ≤ 64 * 1448 := Nat.mul_le_mul_left 64 hfactor
    have hheight : 32 * scale.toNat ≤ 32 * 1448 := Nat.mul_le_mul_left 32 hfactor
    exact Picture.enlarge_of_le (hwidth.trans (by decide))
      ((Nat.mul_le_mul hwidth hheight).trans (by decide))
  simp only [henlarge]

/-- **All renderings of a screen show the same picture.** For every scale from one on
and every scheme there is a picture, whose dots are the pixels and the cells of the
text; a text with two cells of one width tells the screen; no picture is made for a
scale below one and for an unknown scheme only; and the renderers, which number the
pixels row by row, leave them as they were. -/
theorem renderings_agree (henlarge : Picture.Replicates enlarge) (s : Screen) :
    (∀ scale : Nat, 1 ≤ scale → ∀ name colours, Scheme.named? name = some colours →
      ∃ p, s.pictureBy enlarge scale name = .ok p ∧ s.ShownBy scale colours p) ∧
    (∀ (t : Screen) (on off : String), on ≠ off → on.length = off.length →
      s.text on off = t.text on off → s = t) ∧
    (∀ (scale : Int) (name : String) (e : Picture.Error), s.pictureBy enlarge scale name = .error e ↔
      (scale < 1 ∧ e = .scaleTooSmall scale) ∨
        1 ≤ scale ∧ Scheme.named? name = none ∧ e = .unknownScheme name) ∧
    (∀ on off, (Look.textRows on off).Sees s.pixelRows.flatten (s.textRows on off) ∧
      (Look.text on off).Sees s.pixelRows.flatten (s.text on off)) ∧
    ∀ (scale : Int) (name : String),
      (Look.picture enlarge scale name).Sees s.pixelRows.flatten (s.pictureBy enlarge scale name) := by
  refine ⟨fun scale hscale name colours hname => ?_, fun t on off => eq_of_text, fun scale name e => ?_,
    fun on off => ⟨Look.sees_textRows s on off, Look.sees_text s on off⟩,
    fun scale name => Look.sees_picture enlarge s scale name⟩
  · exact exists_pictureBy henlarge (by omega) hname
  · exact pictureBy_eq_error_iff henlarge

/-- A screen with one lit pixel. -/
def speck : Screen := ⟨(Vector.replicate 32 0).set 3 (dot 5)⟩

theorem speck_isShown : Picture.Replicates Picture.replicate ∧
    (∃ p, speck.pictureBy Picture.replicate 3 "light" = .ok p ∧
      p.colour? 17 9 = some Scheme.light.foreground ∧ p.colour? 18 9 = some Scheme.light.background) ∧
    speck.text "
" " " ≠ blank.text "
" " " ∧
    speck.pictureBy Picture.replicate 0 "light" = .error (.scaleTooSmall 0) := by
  obtain ⟨hpicture, htext, herror, -⟩ := renderings_agree Picture.replicates_replicate speck
  obtain ⟨p, hp, hshown⟩ := hpicture 3 (by decide) "light" Scheme.light (by decide)
  have hinside : ∀ x < 192, ∀ y < 96, x < p.width ∧ y < p.height := by
    intro x hx y hy
    rw [hshown.width, hshown.height]
    exact ⟨hx, hy⟩
  obtain ⟨hx, hy⟩ := hinside 17 (by decide) 9 (by decide)
  obtain ⟨hx', -⟩ := hinside 18 (by decide) 9 (by decide)
  have hlit := (hshown.pixel 17 hx 9 hy).2 (by decide +kernel)
  have hdark := hshown.background 18 hx' 9 hy fun h =>
    absurd ((hshown.pixel 18 hx' 9 hy).1 h) (by decide +kernel)
  refine ⟨Picture.replicates_replicate, ⟨p, hp, hlit, hdark⟩, fun h => ?_, ?_⟩
  · exact absurd (htext blank "
" " " (by decide) (by decide) h) (by decide +kernel)
  · exact (herror 0 "light" _).2 (.inl ⟨by decide, rfl⟩)

end Screen

end Chip8
