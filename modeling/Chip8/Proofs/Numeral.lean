/-
Numbers read back from their text: `value` undoes `characters`, whatever the
width, so a number is the only one with its text. Padded to a width it fits
in, a number has exactly that many characters.
-/
import Chip8.Numeral
import Mathlib.Algebra.Group.Nat.Defs

namespace Chip8.Numeral

/-- The number a digit stands for. -/
def digitValue (c : Char) : Nat := if c.toNat < 65 then c.toNat - 48 else c.toNat - 55

/-- The number that digits stand for, the most significant first. -/
def value (base : Nat) (cs : List Char) : Nat :=
  cs.foldl (fun v c => base * v + digitValue c) 0

/-- A digit up to `F`. -/
def IsDigit (c : Char) : Prop := c ∈ "0123456789ABCDEF".toList

theorem digitValue_digitChar {d : Nat} (h : d < 16) : digitValue (Nat.digitChar d).toUpper = d := by
  revert d
  decide

theorem isDigit_digitChar {d : Nat} (h : d < 16) : IsDigit (Nat.digitChar d).toUpper := by
  revert d
  unfold IsDigit
  decide

theorem value_append_digit (base : Nat) (cs : List Char) (c : Char) :
    value base (cs ++ [c]) = base * value base cs + digitValue c := by
  simp [value]

/-! ## Digits -/

theorem digits_of_lt {base n : Nat} (h : n < base) : digits base n = [(Nat.digitChar n).toUpper] := by
  simp [digits, Nat.toDigits_of_lt_base h]

/-- The last digit comes off the end. -/
theorem digits_of_le {base n : Nat} (hb : 1 < base) (h : base ≤ n) :
    digits base n = digits base (n / base) ++ [(Nat.digitChar (n % base)).toUpper] := by
  simp [digits, Nat.toDigits_of_base_le hb h]

theorem value_digits {base : Nat} (hb : 1 < base) (hb' : base ≤ 16) (n : Nat) :
    value base (digits base n) = n := by
  induction n using Nat.strongRecOn with
  | ind n ih =>
    rcases Nat.lt_or_ge n base with h | h
    · rw [digits_of_lt h]
      simp [value, digitValue_digitChar (Nat.lt_of_lt_of_le h hb')]
    · have hd : n % base < base := Nat.mod_lt n (by omega)
      rw [digits_of_le hb h, value_append_digit, ih _ (Nat.div_lt_self (by omega) hb),
        digitValue_digitChar (by omega), Nat.div_add_mod]

theorem isDigit_of_mem_digits {base : Nat} (hb : 1 < base) (hb' : base ≤ 16) (n : Nat) {c : Char}
    (h : c ∈ digits base n) : IsDigit c := by
  induction n using Nat.strongRecOn with
  | ind n ih =>
    rcases Nat.lt_or_ge n base with hn | hn
    · rw [digits_of_lt hn, List.mem_singleton] at h
      exact h ▸ isDigit_digitChar (by omega)
    · have hd : n % base < base := Nat.mod_lt n (by omega)
      rw [digits_of_le hb hn, List.mem_append, List.mem_singleton] at h
      rcases h with h | rfl
      · exact ih _ (Nat.div_lt_self (by omega) hb) h
      · exact isDigit_digitChar (by omega)

theorem length_digits_le_iff {base n k : Nat} (hb : 1 < base) (hk : 0 < k) :
    (digits base n).length ≤ k ↔ n < base ^ k := by
  simp [digits, Nat.length_toDigits_le_iff hb hk]

/-! ## Padded numbers -/

theorem characters_natCast (base width n : Nat) :
    characters base width n = (digits base n).leftpad width '0' := by
  have : ¬ (n : Int) < 0 := by omega
  simp [characters, this]

theorem value_leftpad (base width : Nat) (cs : List Char) :
    value base (cs.leftpad width '0') = value base cs := by
  have hzeros : ∀ k, (List.replicate k '0').foldl (fun v c => base * v + digitValue c) 0 = 0 := by
    intro k
    induction k with
    | zero => rfl
    | succ k ih => simpa [List.replicate_succ, digitValue] using ih
  simp [value, List.leftpad, List.foldl_append, hzeros]

theorem value_characters {base : Nat} (hb : 1 < base) (hb' : base ≤ 16) (width n : Nat) :
    value base (characters base width n) = n := by
  rw [characters_natCast, value_leftpad, value_digits hb hb']

theorem isDigit_of_mem_characters {base : Nat} (hb : 1 < base) (hb' : base ≤ 16) (width n : Nat)
    {c : Char} (h : c ∈ characters base width n) : IsDigit c := by
  rw [characters_natCast, List.leftpad, List.mem_append, List.mem_replicate] at h
  rcases h with ⟨_, rfl⟩ | h
  · unfold IsDigit
    decide
  · exact isDigit_of_mem_digits hb hb' n h

theorem length_characters {base width n : Nat} (hb : 1 < base) (hw : 0 < width) (h : n < base ^ width) :
    (characters base width n).length = width := by
  rw [characters_natCast, List.length_leftpad]
  exact Nat.max_eq_left ((length_digits_le_iff hb hw).2 h)

theorem characters_ne_nil {base width n : Nat} (hw : 0 < width) : characters base width n ≠ [] := by
  rw [characters_natCast, ← List.length_pos_iff, List.length_leftpad]
  exact Nat.lt_of_lt_of_le hw (Nat.le_max_left _ _)

instance : DecidablePred IsDigit := fun _ => inferInstanceAs (Decidable (_ ∈ _))

/-- The number that is written in hexadecimal, if one is. -/
def readHex? (cs : List Char) : Option Nat :=
  if !cs.isEmpty && cs.all fun c => decide (IsDigit c) then some (value 16 cs) else none

theorem readHex?_characters {width : Nat} (hw : 0 < width) (n : Nat) :
    readHex? (characters 16 width n) = some n := by
  have hne : characters 16 width n ≠ [] := characters_ne_nil hw
  have hdigits : ∀ c ∈ characters 16 width n, IsDigit c := fun _ =>
    isDigit_of_mem_characters (by omega) (Nat.le_refl 16) width n
  have hread : (!(characters 16 width n).isEmpty &&
      (characters 16 width n).all fun c => decide (IsDigit c)) = true := by
    simpa [hne] using hdigits
  rw [readHex?, if_pos hread, value_characters (by omega) (Nat.le_refl 16)]

@[simp] theorem toList_render (base width : Nat) (n : Int) :
    (render base width n).toList = characters base width n := by
  simp [render]

/-- Hexadecimal is written with digits and a minus sign. -/
theorem not_mem_hex {c : Char} (hdigit : ¬ IsDigit c) (hsign : c ≠ '-') (width : Nat) (n : Int) :
    c ∉ (hex width n).toList := by
  have hzero : IsDigit '0' := by
    unfold IsDigit
    decide
  have hdigits : ∀ width, c ∉ (digits 16 n.natAbs).leftpad width '0' := by
    intro width h
    rw [List.leftpad, List.mem_append, List.mem_replicate] at h
    rcases h with ⟨-, rfl⟩ | h
    · exact hdigit hzero
    · exact hdigit (isDigit_of_mem_digits (by omega) (Nat.le_refl 16) _ h)
  rw [hex, toList_render, characters]
  split
  · exact List.not_mem_cons_of_ne_of_not_mem hsign (hdigits _)
  · exact hdigits _

/-- A count is written with decimal digits. -/
theorem not_mem_toString {c : Char} (h : c.isDigit = false) (n : Nat) : c ∉ (toString n).toList := by
  intro hmem
  have hdigit : c ∈ Nat.toDigits 10 n := Nat.toList_repr ▸ hmem
  rw [Nat.isDigit_of_mem_toDigits (by omega) (Nat.le_refl 10) hdigit] at h
  cases h

/-- A count is told by its digits. -/
theorem toString_injective {a b : Nat} (h : toString a = toString b) : a = b := by
  have hdigits : digits 10 a = digits 10 b := by
    rw [digits, digits, ← Nat.toList_repr, ← Nat.toList_repr]
    exact congrArg (fun s => s.toList.map Char.toUpper) h
  rw [← value_digits (by omega : 1 < 10) (by omega) a, hdigits, value_digits (by omega) (by omega)]

/-- Numbers with the same hexadecimal text are the same. -/
theorem hex_injective {width a b : Nat} (h : hex width a = hex width b) : a = b := by
  have hcs : characters 16 width a = characters 16 width b := by
    simpa [hex] using congrArg String.toList h
  rw [← value_characters (by omega) (Nat.le_refl 16) width a, hcs,
    value_characters (by omega) (Nat.le_refl 16)]

theorem length_hex {width n : Nat} (hw : 0 < width) (h : n < 16 ^ width) :
    (hex width n).length = width := by
  rw [← String.length_toList, hex, toList_render, length_characters (by omega) hw h]

end Chip8.Numeral
