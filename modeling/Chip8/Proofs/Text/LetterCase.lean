/-
Upper case, and whole case mappings. The case of ASCII letters does not matter
to it, no lower-case letter is left, and blanks stay what they are.

A whole case mapping also changes letters that are left alone here, and makes of
them what is neither ASCII nor blank nor a digit (`MapsUpper`). So it brings such
a character into a text only where there is one already.
-/
import Chip8.Proofs.Text.Blank
import Chip8.Text.DecimalDigit
import Chip8.Text.LetterCase
import Mathlib.Tactic.FinCases

namespace Chip8.Text

variable {c d : Char} {cs ds : List Char}

/-! ## Characters -/

theorem isLower_iff : c.isLower = true ↔ 97 ≤ c.toNat ∧ c.toNat ≤ 122 := by
  show (decide (c.val ≥ 'a'.val) && decide (c.val ≤ 'z'.val)) = true ↔ _
  simp [UInt32.le_iff_toNat_le, ← Char.toNat_val]

theorem isUpper_iff : c.isUpper = true ↔ 65 ≤ c.toNat ∧ c.toNat ≤ 90 := by
  show decide (c.val ≥ 'A'.val ∧ c.val ≤ 'Z'.val) = true ↔ _
  simp [UInt32.le_iff_toNat_le, ← Char.toNat_val]

theorem isAlpha_iff : c.isAlpha = true ↔
    (65 ≤ c.toNat ∧ c.toNat ≤ 90) ∨ 97 ≤ c.toNat ∧ c.toNat ≤ 122 := by
  rw [← isUpper_iff, ← isLower_iff]
  exact Bool.or_eq_true_iff

theorem toNat_toUpper (c : Char) :
    c.toUpper.toNat = if 97 ≤ c.toNat ∧ c.toNat ≤ 122 then c.toNat - 32 else c.toNat := by
  have hval : c.val.toNat = c.toNat := rfl
  unfold Char.toUpper
  simp only [UInt32.le_iff_toNat_le, hval]
  split
  next h =>
    have hrange : 97 ≤ c.toNat ∧ c.toNat ≤ 122 := h
    -- the difference of the two cases is added modulo the code points' width
    have hsum : (c.val + ('A'.val - 'a'.val)).toNat = (c.toNat + 4294967264) % 2 ^ 32 :=
      UInt32.toNat_add _ _
    rw [if_pos hrange, ← Char.toNat_val, hsum]
    omega
  next h => exact (if_neg h).symm

theorem toNat_toLower (c : Char) :
    c.toLower.toNat = if 65 ≤ c.toNat ∧ c.toNat ≤ 90 then c.toNat + 32 else c.toNat := by
  have hval : c.val.toNat = c.toNat := rfl
  unfold Char.toLower
  simp only [ge_iff_le, UInt32.le_iff_toNat_le, hval]
  split
  next h =>
    have hrange : 65 ≤ c.toNat ∧ c.toNat ≤ 90 := h
    have hsum : (c.val + ('a'.val - 'A'.val)).toNat = (c.toNat + 32) % 2 ^ 32 :=
      UInt32.toNat_add _ _
    rw [if_pos hrange, ← Char.toNat_val, hsum]
    omega
  next h => exact (if_neg h).symm

theorem le_iff_toNat_le : c ≤ d ↔ c.toNat ≤ d.toNat := by
  simp [Char.le_def, UInt32.le_iff_toNat_le]

theorem upperOf_of_isAlpha (h : c.isAlpha = true) : upperOf c = [c.toUpper] := by
  have hc : c.toNat ≤ 122 := by
    rw [isAlpha_iff] at h
    omega
  unfold upperOf
  split
  case h_18 => rfl
  all_goals omega

theorem upperOf_toLower (c : Char) : upperOf c.toLower = upperOf c := by
  by_cases hupper : c.isUpper
  · have hrange := isUpper_iff.1 hupper
    have halpha : c.isAlpha = true := isAlpha_iff.2 (.inl hrange)
    have halpha' : c.toLower.isAlpha = true := by
      rw [isAlpha_iff, toNat_toLower, if_pos hrange]
      omega
    have hsame : c.toLower.toUpper = c.toUpper := by
      rw [← Char.toNat_inj, toNat_toUpper, toNat_toUpper, toNat_toLower, if_pos hrange]
      split <;> split <;> omega
    rw [upperOf_of_isAlpha halpha, upperOf_of_isAlpha halpha', hsame]
  · have hsame : c.toLower = c := by
      rw [← Char.toNat_inj, toNat_toLower, if_neg (mt isUpper_iff.2 hupper)]
    rw [hsame]

theorem isLower_of_mem_upperOf (h : d ∈ upperOf c) : d.isLower = false := by
  unfold upperOf at h
  split at h
  case h_18 =>
    rw [List.mem_singleton.1 h, ← Bool.not_eq_true, isLower_iff, toNat_toUpper]
    split <;> omega
  all_goals fin_cases h <;> rfl

theorem upperOf_of_isBlank (h : isBlank c = true) : upperOf c = [c] := by
  have hlower : ¬ (97 ≤ c.toNat ∧ c.toNat ≤ 122) := by
    simp only [isBlank, Bool.or_eq_true, Bool.and_eq_true, decide_eq_true_eq, beq_iff_eq] at h
    omega
  have hsame : c.toUpper = c := by rw [← Char.toNat_inj, toNat_toUpper, if_neg hlower]
  unfold upperOf
  split
  case h_18 => rw [hsame]
  all_goals
    next hc =>
      rw [isBlank, hc] at h
      cases h

/-! ## Texts -/

theorem upper_append (cs ds : List Char) : upper (cs ++ ds) = upper cs ++ upper ds :=
  List.flatMap_append

theorem upper_of_isBlank (h : ∀ c ∈ cs, isBlank c = true) : upper cs = cs := by
  induction cs with
  | nil => rfl
  | cons c cs ih =>
    have hrest := ih fun d hd => h d (List.mem_cons_of_mem c hd)
    rw [upper, List.flatMap_cons, upperOf_of_isBlank (h c List.mem_cons_self)]
    exact congrArg (c :: ·) hrest

/-- Texts that differ in the case of ASCII letters have the same upper case. -/
theorem upper_congr (h : cs.map Char.toLower = ds.map Char.toLower) : upper cs = upper ds := by
  have hlower : ∀ es, upper es = (es.map Char.toLower).flatMap upperOf := by
    intro es
    simp only [List.flatMap_map, upperOf_toLower, upper]
  rw [hlower cs, hlower ds, h]

theorem isLower_of_mem_upper (h : c ∈ upper cs) : c.isLower = false := by
  obtain ⟨d, -, hc⟩ := List.mem_flatMap.1 h
  exact isLower_of_mem_upperOf hc

/-- Blanks put around a text are of no account to its stripped upper case. -/
theorem strip_upper_append {before later : List Char} (hbefore : ∀ c ∈ before, isBlank c = true)
    (hlater : ∀ c ∈ later, isBlank c = true) (cs : List Char) :
    strip (upper (before ++ cs ++ later)) = strip (upper cs) := by
  rw [upper_append, upper_append, upper_of_isBlank hbefore, upper_of_isBlank hlater]
  exact trimBoth_append hbefore hlater

/-! ## Whole case mappings -/

/-- A character that means nothing to who looks for ASCII, blanks and digits. -/
structure IsForeign (c : Char) : Prop where
  not_ascii : 128 ≤ c.toNat
  not_blank : isBlank c = false
  not_digit : DecimalDigit.value? c = none

/-- A mapping to upper case differs from `upperOf` at most in foreign
characters, of which it makes foreign ones. -/
def MapsUpper (up : Char → List Char) : Prop :=
  ∀ c, up c = upperOf c ∨ IsForeign c ∧ upperOf c = [c] ∧ ∃ d ∈ up c, IsForeign d

theorem mapsUpper_upperOf : MapsUpper upperOf := fun _ => .inl rfl

/-- Where two mappings to upper case differ, both leave a foreign character behind. -/
theorem flatMap_upper_cases {up : Char → List Char} (h : MapsUpper up) (cs : List Char) :
    cs.flatMap up = upper cs ∨
      (∃ d ∈ strip (cs.flatMap up), IsForeign d) ∧ ∃ d ∈ strip (upper cs), IsForeign d := by
  by_cases hall : ∀ c ∈ cs, up c = upperOf c
  · exact .inl (List.flatMap_congr hall)
  · right
    push Not at hall
    obtain ⟨c, hc, hne⟩ := hall
    obtain ⟨hforeign, hsame, d, hd, hd'⟩ := (h c).resolve_left hne
    have hkept : c ∈ upper cs := List.mem_flatMap.2 ⟨c, hc, hsame ▸ List.mem_singleton_self c⟩
    exact ⟨⟨d, mem_trimBoth (List.mem_flatMap.2 ⟨c, hc, hd⟩) hd'.not_blank, hd'⟩,
      c, mem_trimBoth hkept hforeign.not_blank, hforeign⟩

end Chip8.Text
