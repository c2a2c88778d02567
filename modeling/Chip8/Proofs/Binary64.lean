/-
How far binary64 reaches. A positive integer keeps its leading 53 bits, so the
exponent of the nearest number is that of its leading bit, or one more if it is
rounded up to the next power of two. It is out of reach from half a step above
the greatest number on.
-/
import Chip8.Binary64
import Mathlib.Algebra.Order.Ring.Nat

namespace Chip8.Binary64

/-! ## Rounding -/

theorem le_roundQuotient (num den : Nat) : num / den ≤ roundQuotient num den := by
  unfold roundQuotient
  dsimp only
  split <;> omega

theorem roundQuotient_le (num den : Nat) : roundQuotient num den ≤ num / den + 1 := by
  unfold roundQuotient
  dsimp only
  split <;> omega

theorem roundQuotient_one (num : Nat) : roundQuotient num 1 = num := by
  simp [roundQuotient, Nat.mod_one]

/-- An odd quotient is rounded up from its half on. -/
theorem lt_roundQuotient_iff {num half k : Nat} (hhalf : 0 < half) (hk : k % 2 = 1) :
    k < roundQuotient num (2 * half) ↔ k * (2 * half) + half ≤ num := by
  have hdivide := Nat.div_add_mod num (2 * half)
  have hrest := Nat.mod_lt num (Nat.mul_pos Nat.two_pos hhalf)
  have hle := le_roundQuotient num (2 * half)
  have hge := roundQuotient_le num (2 * half)
  rcases Nat.lt_trichotomy (num / (2 * half)) k with hlt | heq | hgt
  · have hmul : 2 * half * (num / (2 * half) + 1) ≤ 2 * half * k := Nat.mul_le_mul_left _ hlt
    rw [Nat.mul_add, Nat.mul_one] at hmul
    rw [Nat.mul_comm k]
    omega
  · rw [heq, Nat.mul_comm] at hdivide
    simp only [roundQuotient, heq, hk, and_true]
    split <;> omega
  · have hmul : 2 * half * (k + 1) ≤ 2 * half * (num / (2 * half)) := Nat.mul_le_mul_left _ hgt
    rw [Nat.mul_add, Nat.mul_one] at hmul
    rw [Nat.mul_comm k]
    omega

/-! ## Integers -/

/-- The leading 53 bits of a positive integer, rounded. -/
def leading (n : Nat) : Nat := roundQuotient (n <<< (52 - n.log2)) (1 <<< (n.log2 - 52))

theorem leading_range {n : Nat} (hn : n ≠ 0) : 2 ^ 52 ≤ leading n ∧ leading n ≤ 2 ^ 53 := by
  have hlow : 2 ^ n.log2 ≤ n := Nat.log2_self_le hn
  have hhigh : n < 2 ^ (n.log2 + 1) := Nat.lt_log2_self
  unfold leading
  rcases Nat.le_total n.log2 52 with h | h
  · have hdown : 2 ^ n.log2 * 2 ^ (52 - n.log2) = 2 ^ 52 := by
      rw [← Nat.pow_add, Nat.add_sub_cancel' h]
    have hup : 2 ^ (n.log2 + 1) * 2 ^ (52 - n.log2) = 2 ^ 53 := by
      rw [Nat.pow_succ, Nat.mul_right_comm, hdown, ← Nat.pow_succ]
    rw [Nat.sub_eq_zero_of_le h, Nat.shiftLeft_zero, roundQuotient_one, Nat.shiftLeft_eq, ← hdown,
      ← hup]
    exact ⟨Nat.mul_le_mul_right _ hlow, Nat.mul_le_mul_right _ hhigh.le⟩
  · have hpos : 0 < 2 ^ (n.log2 - 52) := Nat.two_pow_pos _
    have hdown : 2 ^ 52 * 2 ^ (n.log2 - 52) = 2 ^ n.log2 := by
      rw [← Nat.pow_add, Nat.add_sub_cancel' h]
    have hup : 2 ^ 53 * 2 ^ (n.log2 - 52) = 2 ^ (n.log2 + 1) := by
      rw [Nat.pow_succ 2 52, Nat.mul_right_comm, hdown, Nat.pow_succ]
    rw [Nat.sub_eq_zero_of_le h, Nat.shiftLeft_zero, Nat.shiftLeft_eq, Nat.one_mul]
    have hquotient : n / 2 ^ (n.log2 - 52) < 2 ^ 53 := (Nat.div_lt_iff_lt_mul hpos).2 (hup ▸ hhigh)
    constructor
    · exact ((Nat.le_div_iff_mul_le hpos).2 (hdown ▸ hlow)).trans (le_roundQuotient ..)
    · exact (roundQuotient_le ..).trans hquotient

theorem lastBitExponent_one {n : Nat} (hn : n ≠ 0) : lastBitExponent n 1 = (n.log2 : Int) - 52 := by
  have hone : ((Nat.log2 1 : Nat) : Int) = 0 := rfl
  have habove : 1 <<< n.log2 ≤ n := by
    rw [Nat.shiftLeft_eq, Nat.one_mul]
    exact Nat.log2_self_le hn
  simp only [lastBitExponent, hone, Int.sub_zero, Int.natCast_nonneg, Int.toNat_natCast, habove,
    if_true]
  omega

theorem magnitudeBits_one {n : Nat} (hn : n ≠ 0) :
    magnitudeBits n 1 + leadingBit = (n.log2 + 1023) * leadingBit + leading n := by
  have hnum : (-((n.log2 : Int) - 52)).toNat = 52 - n.log2 := by omega
  have hden : ((n.log2 : Int) - 52).toNat = n.log2 - 52 := by omega
  have hexponent : ((n.log2 : Int) - 52 + 1075).toNat = n.log2 + 1023 := by omega
  have hfull : leadingBit ≤ leading n := (leading_range hn).1
  have hlead : roundQuotient (n <<< (52 - n.log2)) (1 <<< (n.log2 - 52)) = leading n := rfl
  rw [magnitudeBits, if_neg hn, lastBitExponent_one hn]
  dsimp only
  rw [hnum, hden, hlead, if_neg (Nat.not_lt.2 hfull), hexponent]
  omega

/-- The least integer that binary64 has no number near to. -/
def outOfReach : Nat := 2 ^ 1024 - 2 ^ 970

/-- Up to the exponent 1023 only the significand may carry over. -/
theorem two_pow_le_leading_iff {n : Nat} (h : n.log2 = 1023) :
    2 ^ 53 ≤ leading n ↔ outOfReach ≤ n := by
  have hnum : n <<< (52 - 1023) = n := rfl
  have hden : 1 <<< (1023 - 52) = 2 * 2 ^ 970 := by decide +kernel
  have hlimit : outOfReach = (2 ^ 53 - 1) * (2 * 2 ^ 970) + 2 ^ 970 := by decide +kernel
  have hpos : 0 < 2 ^ 970 := by decide +kernel
  rw [leading, h, hnum, hden, hlimit]
  generalize 2 ^ 970 = half at hpos
  exact lt_roundQuotient_iff hpos (by decide)

theorem infinityBits_le_iff {n : Nat} : infinityBits ≤ magnitudeBits n 1 ↔ outOfReach ≤ n := by
  by_cases hn : n = 0
  · rw [hn]
    decide +kernel
  have hinfinity : infinityBits = 2047 * 2 ^ 52 := by decide
  have hbits : magnitudeBits n 1 + 2 ^ 52 = (n.log2 + 1023) * 2 ^ 52 + leading n :=
    magnitudeBits_one hn
  have hrange := leading_range hn
  rw [hinfinity]
  rcases Nat.lt_trichotomy n.log2 1023 with hlt | heq | hgt
  · have hsmall : n < outOfReach :=
      calc n < 2 ^ 1023 := (Nat.log2_lt hn).1 hlt
        _ ≤ outOfReach := by decide +kernel
    omega
  · rw [← two_pow_le_leading_iff heq]
    omega
  · have hlarge : outOfReach ≤ n :=
      calc outOfReach ≤ 2 ^ 1024 := by decide +kernel
        _ ≤ n := (Nat.le_log2 hn).1 hgt
    omega

theorem ofInt?_eq_none_iff {n : Int} : ofInt? n = none ↔ outOfReach ≤ n.natAbs := by
  simp [ofInt?, quotient?, ofQuotient?, infinityBits_le_iff]

end Chip8.Binary64
