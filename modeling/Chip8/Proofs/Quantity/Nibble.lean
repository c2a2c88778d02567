/-
Nibbles as the digits of integers in base sixteen, position 0 being the last. An
integer may be negative or wider than the value it is read as: its digits up to
a width are those of its residue, so put together again they are that residue,
and nothing above the width shows in them. Splitting a word and composing an
address are the two ends of this.
-/
import Chip8.Proofs.Decoding
import Chip8.Proofs.Quantity.Bits
import Mathlib.Algebra.BigOperators.Group.Finset.Basic
import Mathlib.Tactic.Ring

namespace Chip8.Quantity

/-! ## Digits -/

/-- The digit of an integer in base sixteen. -/
def digit (value : Int) (i : Nat) : Nibble := BitVec.ofInt 4 (value >>> (4 * i))

theorem toNat_ofInt_four (value : Int) : ((BitVec.ofInt 4 value).toNat : Int) = value % 16 :=
  toNat_ofInt_cast 4 value

theorem toNat_digit (value : Int) (i : Nat) : ((digit value i).toNat : Int) = value / 16 ^ i % 16 := by
  have hpow : ((2 ^ (4 * i) : Nat) : Int) = 16 ^ i := by
    rw [Nat.pow_mul]
    norm_cast
  rw [digit, toNat_ofInt_four, Int.shiftRight_eq_div_pow, hpow]

/-- One digit more stands for a residue that is sixteen times as wide. -/
theorem emod_pow_succ (value : Int) (i : Nat) :
    value % 16 ^ (i + 1) = value % 16 ^ i + value / 16 ^ i % 16 * 16 ^ i := by
  have hpos : (0 : Int) < 16 ^ i := Int.pow_pos (by decide)
  rw [Int.pow_succ]
  generalize (16 : Int) ^ i = place at hpos ⊢
  have hlow := Int.mul_ediv_add_emod value place
  have hhigh := Int.mul_ediv_add_emod (value / place) 16
  have hlast : value / place % 16 * place ≤ 15 * place :=
    Int.mul_le_mul_of_nonneg_right (by omega) hpos.le
  have hnonneg : 0 ≤ value / place % 16 * place := Int.mul_nonneg (by omega) hpos.le
  have hrest := Int.emod_nonneg value hpos.ne'
  have hlt := Int.emod_lt_of_pos value hpos
  refine ((Int.ediv_emod_unique (q := value / place / 16) (by omega)).2 ⟨?_, by omega, by omega⟩).2
  calc value % place + value / place % 16 * place + place * 16 * (value / place / 16)
      = place * (16 * (value / place / 16) + value / place % 16) + value % place := by ring
    _ = value := by rw [hhigh, hlow]

/-- The digits below a position, put together, are the residue. -/
theorem sum_digit (value : Int) (count : Nat) :
    ∑ i ∈ Finset.range count, ((digit value i).toNat : Int) * 16 ^ i = value % 16 ^ count := by
  induction count with
  | zero => simp
  | succ count ih => rw [Finset.sum_range_succ, ih, toNat_digit, emod_pow_succ]

/-! ## Reading -/

section Reading

variable {index width : Int}

theorem nibbleAt_of_width (h : ¬ (width = 8 ∨ width = 16)) (value index : Int) :
    nibbleAt value index width = .error (.unsupportedWidth width) := by
  rw [nibbleAt, if_pos (not_or.1 h)]

theorem nibbleAt_of_index (hwidth : width = 8 ∨ width = 16)
    (h : ¬ (0 ≤ index ∧ index ≤ width / 4 - 1)) (value : Int) :
    nibbleAt value index width = .error (.indexOutOfRange index width) := by
  have hindex : index < 0 ∨ width / 4 ≤ index := by omega
  rw [nibbleAt, if_neg (by omega), if_pos hindex]

theorem nibbleAt_of_inside (hwidth : width = 8 ∨ width = 16) (h : 0 ≤ index ∧ index ≤ width / 4 - 1)
    (value : Int) : nibbleAt value index width = .ok (digit value index.toNat) := by
  have hindex : ¬ (index < 0 ∨ width / 4 ≤ index) := by omega
  rw [nibbleAt, if_neg (by omega), if_neg hindex, digit]

/-- The width is looked at before the index. -/
theorem nibbleAt_eq_error_iff {value : Int} {e : NibbleError} :
    nibbleAt value index width = .error e ↔
      (¬ (width = 8 ∨ width = 16) ∧ e = .unsupportedWidth width) ∨
      ((width = 8 ∨ width = 16) ∧ ¬ (0 ≤ index ∧ index ≤ width / 4 - 1) ∧
        e = .indexOutOfRange index width) := by
  by_cases hwidth : width = 8 ∨ width = 16
  · by_cases hindex : 0 ≤ index ∧ index ≤ width / 4 - 1
    · simp [nibbleAt_of_inside hwidth hindex, hwidth, hindex]
    · simp only [nibbleAt_of_index hwidth hindex, Except.error.injEq, hwidth, hindex, not_true,
        not_false_eq_true, false_and, true_and, false_or, eq_comm]
  · simp [nibbleAt_of_width hwidth, hwidth, eq_comm]

/-- All nibbles of a value can be read, and put together they are its residue. -/
theorem exists_nibbles (hwidth : width = 8 ∨ width = 16) (value : Int) :
    ∃ ns : Nat → Nibble, (∀ i : Nat, i ≤ width / 4 - 1 → nibbleAt value i width = .ok (ns i)) ∧
      ∑ i ∈ Finset.range (width / 4).toNat, ((ns i).toNat : Int) * 16 ^ i =
        value % 2 ^ width.toNat := by
  have hread : ∀ i : Nat, i ≤ width / 4 - 1 → nibbleAt value i width = .ok (digit value i) :=
    fun i hi => nibbleAt_of_inside hwidth ⟨by omega, hi⟩ value
  have hresidue : (16 : Int) ^ (width / 4).toNat = 2 ^ width.toNat := by
    rcases hwidth with rfl | rfl
    · rfl
    · rfl
  exact ⟨digit value, hread, (sum_digit value _).trans (congrArg (value % ·) hresidue)⟩

end Reading

/-! ## Words and addresses -/

/-- A word has the digits of every integer that it stands for. -/
theorem extractLsb'_ofInt (word : Int) {i : Nat} (h : i < 4) :
    (BitVec.ofInt 16 word).extractLsb' (4 * i) 4 = digit word i := by
  apply BitVec.eq_of_toNat_eq
  have hdigit := toNat_digit word i
  have hword : ((BitVec.ofInt 16 word).toNat : Int) = word % 65536 := toNat_ofInt_cast 16 word
  rw [BitVec.extractLsb'_toNat, Nat.shiftRight_eq_div_pow]
  match i with
  | 0 | 1 | 2 | 3 => omega

theorem nibbles_ofInt (word : Int) : Word.nibbles (BitVec.ofInt 16 word) =
    (digit word 3, digit word 2, digit word 1, digit word 0) := by
  rw [Word.nibbles, ← extractLsb'_ofInt word (by decide : 3 < 4),
    ← extractLsb'_ofInt word (by decide : 2 < 4), ← extractLsb'_ofInt word (by decide : 1 < 4),
    ← extractLsb'_ofInt word (by decide : 0 < 4)]

theorem toNat_ofNibbles (hi mid lo : Int) : ((Address.ofNibbles hi mid lo).toNat : Int) =
    256 * (hi % 16) + 16 * (mid % 16) + lo % 16 := by
  rw [Address.ofNibbles, toNat_append_eq, toNat_append_eq, ← toNat_ofInt_four hi,
    ← toNat_ofInt_four mid, ← toNat_ofInt_four lo]
  push_cast
  ring

theorem word_of_digits (word : Int) : 4096 * ((digit word 3).toNat : Int) +
    256 * (digit word 2).toNat + 16 * (digit word 1).toNat + (digit word 0).toNat = word % 65536 := by
  have h3 := toNat_digit word 3
  have h2 := toNat_digit word 2
  have h1 := toNat_digit word 1
  have h0 := toNat_digit word 0
  omega

theorem address_of_digits (word : Int) : ((Address.ofNibbles (digit word 2).toNat
    (digit word 1).toNat (digit word 0).toNat).toNat : Int) = word % 4096 := by
  have hword := word_of_digits word
  rw [toNat_ofNibbles]
  omega

/-- **Taking nibbles and putting them together undo each other.** A nibble is refused
exactly for a width that is neither 8 nor 16, or an index outside of the value. Of any
integer, all nibbles that can be read at a width are the digits of its residue. The four
nibbles of a word are those, the lower three give the address in it, and an address of
three integers has their residues as digits. -/
theorem nibbles_areDigits :
    (∀ value index width : Int, (∃ e, nibbleAt value index width = .error e) ↔
      (width ≠ 8 ∧ width ≠ 16) ∨ ¬ (0 ≤ index ∧ index ≤ width / 4 - 1)) ∧
    (∀ value width : Int, width = 8 ∨ width = 16 → ∃ ns : Nat → Nibble,
      (∀ i : Nat, i ≤ width / 4 - 1 → nibbleAt value i width = .ok (ns i)) ∧
      ∑ i ∈ Finset.range (width / 4).toNat, ((ns i).toNat : Int) * 16 ^ i =
        value % 2 ^ width.toNat) ∧
    (∀ word : Int, ∃ f x y n : Nibble, Word.nibbles (BitVec.ofInt 16 word) = (f, x, y, n) ∧
      nibbleAt word 3 16 = .ok f ∧ nibbleAt word 2 16 = .ok x ∧
      nibbleAt word 1 16 = .ok y ∧ nibbleAt word 0 16 = .ok n ∧
      4096 * (f.toNat : Int) + 256 * x.toNat + 16 * y.toNat + n.toNat = word % 65536 ∧
      ((Address.ofNibbles x.toNat y.toNat n.toNat).toNat : Int) = word % 4096) ∧
    ∀ hi mid lo : Int, ((Address.ofNibbles hi mid lo).toNat : Int) =
      256 * (hi % 16) + 16 * (mid % 16) + lo % 16 := by
  refine ⟨fun value index width => ?_, fun value width h => exists_nibbles h value, fun word => ?_,
    toNat_ofNibbles⟩
  · simp only [nibbleAt_eq_error_iff]
    constructor
    · rintro ⟨e, ⟨hwidth, -⟩ | ⟨-, hindex, -⟩⟩
      · exact .inl (not_or.1 hwidth)
      · exact .inr hindex
    · intro h
      by_cases hwidth : width = 8 ∨ width = 16
      · exact ⟨_, .inr ⟨hwidth, h.resolve_left (mt not_or.2 (not_not.2 hwidth)), rfl⟩⟩
      · exact ⟨_, .inl ⟨hwidth, rfl⟩⟩
  · have hread : ∀ i : Nat, i ≤ 3 → nibbleAt word i 16 = .ok (digit word i) := fun i hi =>
      nibbleAt_of_inside (.inr rfl) ⟨by omega, by omega⟩ word
    exact ⟨_, _, _, _, nibbles_ofInt word, hread 3 (by decide), hread 2 (by decide),
      hread 1 (by decide), hread 0 (by decide), word_of_digits word, address_of_digits word⟩

/-- Two nibbles of a number below zero that is wider than they are. -/
theorem negative_nibbles : nibbleAt (-0x1235) 0 8 = .ok 0xB ∧ nibbleAt (-0x1235) 1 8 = .ok 0xC ∧
    (0xB : Int) + 0xC * 16 = -0x1235 % 256 := by
  obtain ⟨-, hdigits, -⟩ := nibbles_areDigits
  obtain ⟨ns, hread, hsum⟩ := hdigits (-0x1235) 8 (.inl rfl)
  have h0 : ns 0 = 0xB := Except.ok.inj ((hread 0 (by decide)).symm.trans (by decide))
  have h1 : ns 1 = 0xC := Except.ok.inj ((hread 1 (by decide)).symm.trans (by decide))
  have hrange : (8 / 4 : Int).toNat = 2 := rfl
  rw [hrange, Finset.sum_range_succ, Finset.sum_range_one, h0, h1] at hsum
  exact ⟨by decide, by decide, hsum⟩

end Chip8.Quantity
