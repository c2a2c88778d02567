/-
The renderers over the pixels of a screen in one list, row by row. They look a
pixel up by its number, `y * 64 + x`, and could change the list as they go.

On the pixels of a screen no look misses the list, every renderer makes what
the screen's own does, and the list is as it was (`Sees`).
-/
import Chip8.Picture
import Chip8.Proofs.Plain.Drawing

namespace Chip8

open Plain (at?)

/-- A computation over the pixels in one list, which breaks on a pixel that is not in it. -/
abbrev Look := StateT (List Bool) Option

namespace Look

/-- The pixel of a column and a row. -/
def pixel (x y : Nat) : Look Bool := do at? (← get) (y * Screen.width + x)

/-- The pixels of a row as text. -/
def textRow (on off : String) (y : Nat) : Look String := do
  let cells ← (List.range Screen.width).mapM fun x => do return if ← pixel x y then on else off
  return String.join cells

/-- The rows as text. -/
def textRows (on off : String) : Look (List String) := (List.range Screen.height).mapM (textRow on off)

/-- The whole screen as text. -/
def text (on off : String) : Look String := do return String.intercalate "\n" (← textRows on off)

end Look

/-! ## Sheets -/

/-- A picture in the making: a colour for every column and row. -/
abbrev Sheet := Nat → Nat → Colour

/-- A sheet with one dot put on it. -/
def Sheet.put (sheet : Sheet) (x y : Nat) (c : Colour) : Sheet :=
  fun px py => if px = x ∧ py = y then c else sheet px py

/-- The picture on a sheet. -/
def Sheet.picture (sheet : Sheet) : Picture :=
  { width := Screen.width
    height := Screen.height
    rows := Runs.ofList ((List.range Screen.height).map fun y =>
      Runs.ofList ((List.range Screen.width).map fun x => sheet x y)) }

namespace Look

/-- Puts a dot on a sheet if the pixel of a column and a row is lit. -/
def dot (ink : Colour) (y : Nat) (sheet : Sheet) (x : Nat) : Look Sheet := do
  return if ← pixel x y then sheet.put x y ink else sheet

/-- Puts the lit pixels on a sheet, row by row. -/
def dots (ink : Colour) (sheet : Sheet) : Look Sheet :=
  (List.range Screen.height).foldlM
    (fun sheet y => (List.range Screen.width).foldlM (dot ink y) sheet) sheet

/-- The picture in a scheme: a sheet of the background with dots in the foreground. -/
def picture (enlarge : Picture → Nat → Except Picture.Error Picture) (scale : Int)
    (scheme : String) : Look (Except Picture.Error Picture) := do
  if scale < 1 then return .error (.scaleTooSmall scale)
  let some colours := Scheme.named? scheme | return .error (.unknownScheme scheme)
  let sheet ← dots colours.foreground fun _ _ => colours.background
  return if 1 < scale then enlarge sheet.picture scale.toNat else .ok sheet.picture

/-! ## Looking without changing -/

variable {α β : Type} {pixels : List Bool}

/-- A computation comes to a value and leaves the pixels as they were. -/
def Sees (look : Look α) (pixels : List Bool) (a : α) : Prop := look.run pixels = some (a, pixels)

theorem sees_pure (a : α) : Sees (pure a) pixels a := rfl

theorem Sees.bind {look : Look α} {next : α → Look β} {a : α} {b : β} (h : Sees look pixels a)
    (hnext : Sees (next a) pixels b) : Sees (look >>= next) pixels b := by
  unfold Sees at h hnext ⊢
  rw [StateT.run_bind, h]
  exact hnext

theorem sees_mapM {f : α → Look β} {g : α → β} : ∀ {xs : List α},
    (∀ a ∈ xs, Sees (f a) pixels (g a)) → Sees (xs.mapM f) pixels (xs.map g)
  | [], _ => rfl
  | a :: xs, h => by
    have hrest : Sees (xs.mapM f) pixels (xs.map g) :=
      sees_mapM fun b hb => h b (List.mem_cons_of_mem a hb)
    rw [List.mapM_cons]
    exact (h a List.mem_cons_self).bind (hrest.bind (sees_pure _))

theorem sees_foldlM {f : β → α → Look β} {g : β → α → β} : ∀ {xs : List α} {b : β},
    (∀ b, ∀ a ∈ xs, Sees (f b a) pixels (g b a)) → Sees (xs.foldlM f b) pixels (xs.foldl g b)
  | [], _, _ => rfl
  | a :: xs, b, h => by
    have hrest : Sees (xs.foldlM f (g b a)) pixels (xs.foldl g (g b a)) :=
      sees_foldlM fun b c hc => h b c (List.mem_cons_of_mem a hc)
    rw [List.foldlM_cons]
    exact (h b a List.mem_cons_self).bind hrest

variable {s : Screen} {x y : Nat}

theorem sees_pixel (s : Screen) (hx : x < Screen.width) (hy : y < Screen.height) :
    Sees (pixel x y) s.pixelRows.flatten (s.lit x y) := by
  have hat := Plain.at?_canvas s.lit hx hy
  rw [Plain.canvas, ← Screen.flatten_pixelRows] at hat
  change (at? s.pixelRows.flatten (y * Screen.width + x)).bind (fun p => some (p, _)) = _
  change at? s.pixelRows.flatten (y * Screen.width + x) = _ at hat
  rw [hat]
  rfl

/-! ## Texts -/

theorem sees_textRows (s : Screen) (on off : String) :
    Sees (textRows on off) s.pixelRows.flatten (s.textRows on off) := by
  rw [Screen.textRows_eq]
  refine sees_mapM fun y hy => (sees_mapM fun x hx => ?_).bind (sees_pure _)
  exact (sees_pixel s (List.mem_range.1 hx) (List.mem_range.1 hy)).bind (sees_pure _)

theorem sees_text (s : Screen) (on off : String) :
    Sees (text on off) s.pixelRows.flatten (s.text on off) :=
  (sees_textRows s on off).bind (sees_pure _)

/-! ## Pictures -/

/-- A sheet with the lit pixels of some rows and columns put on it. -/
def inked (s : Screen) (ink : Colour) (sheet : Sheet) (rows columns : List Nat) : Sheet :=
  fun px py => if py ∈ rows ∧ px ∈ columns ∧ s.lit px py then ink else sheet px py

theorem foldl_dots_row (s : Screen) (ink : Colour) (y : Nat) (xs : List Nat) (sheet : Sheet) :
    xs.foldl (fun sheet x => if s.lit x y then sheet.put x y ink else sheet) sheet =
      inked s ink sheet [y] xs := by
  induction xs generalizing sheet with
  | nil =>
    funext px py
    simp [inked]
  | cons x xs ih =>
    rw [List.foldl_cons, ih]
    funext px py
    simp only [inked, List.mem_cons]
    by_cases hlit : s.lit x y
    · rw [if_pos hlit, Sheet.put]
      grind
    · rw [if_neg hlit]
      grind

theorem foldl_dots (s : Screen) (ink : Colour) (ys xs : List Nat) (sheet : Sheet) :
    ys.foldl (fun sheet y => inked s ink sheet [y] xs) sheet = inked s ink sheet ys xs := by
  induction ys generalizing sheet with
  | nil =>
    funext px py
    simp [inked]
  | cons y ys ih =>
    rw [List.foldl_cons, ih]
    funext px py
    simp only [inked, List.mem_cons]
    grind

theorem sees_dots (s : Screen) (ink : Colour) (sheet : Sheet) :
    Sees (dots ink sheet) s.pixelRows.flatten
      (inked s ink sheet (List.range Screen.height) (List.range Screen.width)) := by
  rw [← foldl_dots]
  refine sees_foldlM fun sheet y hy => ?_
  rw [← foldl_dots_row]
  refine sees_foldlM fun sheet x hx => ?_
  exact (sees_pixel s (List.mem_range.1 hx) (List.mem_range.1 hy)).bind (sees_pure _)

theorem inked_eq (s : Screen) (colours : Scheme) {x y : Nat} (hx : x ∈ List.range Screen.width)
    (hy : y ∈ List.range Screen.height) :
    inked s colours.foreground (fun _ _ => colours.background) (List.range Screen.height)
      (List.range Screen.width) x y = colours.colour (s.lit x y) := by
  simp [inked, Scheme.colour, List.mem_range.1 hx, List.mem_range.1 hy]

theorem picture_inked (s : Screen) (colours : Scheme) :
    (inked s colours.foreground (fun _ _ => colours.background) (List.range Screen.height)
      (List.range Screen.width)).picture = Picture.ofScreen s colours := by
  have hrow : ∀ y ∈ List.range Screen.height, (List.range Screen.width).map (fun x =>
      inked s colours.foreground (fun _ _ => colours.background) (List.range Screen.height)
        (List.range Screen.width) x y) = (s.pixelRow y).map colours.colour := by
    intro y hy
    rw [Screen.pixelRow, List.map_map]
    exact List.map_congr_left fun x hx => inked_eq s colours hx hy
  have hrows := List.map_congr_left fun y hy => congrArg Runs.ofList (hrow y hy)
  simp only [Sheet.picture, Picture.ofScreen, Screen.pixelRows, List.map_map, hrows,
    Function.comp_def]

theorem sees_picture (enlarge : Picture → Nat → Except Picture.Error Picture) (s : Screen)
    (scale : Int) (scheme : String) :
    Sees (picture enlarge scale scheme) s.pixelRows.flatten (s.pictureBy enlarge scale scheme) := by
  unfold picture Screen.pictureBy
  by_cases hscale : scale < 1
  · simp only [if_pos hscale]
    exact sees_pure _
  · simp only [if_neg hscale]
    cases Scheme.named? scheme with
    | none => exact sees_pure _
    | some colours =>
      simp only [← picture_inked]
      exact (sees_dots s colours.foreground _).bind (sees_pure _)

end Look

end Chip8
