/-
The bits of integers in two's complement of unlimited length. Cut at a width that
keeps its sign, an integer has the bits of what is left, and above those its sign.
So the bitwise operations, which work on such cuts, work bit by bit, and they are
the ones of the library.
-/
import Chip8.Quantity
import Mathlib.Data.Int.Bitwise

namespace Chip8

variable {w : Nat}

/-- Cutting an integer at a width takes its residue. -/
theorem toNat_ofInt_cast (w : Nat) (v : Int) : ((BitVec.ofInt w v).toNat : Int) = v % 2 ^ w := by
  have hw : ((2 ^ w : Nat) : Int) ≠ 0 := by
    have := Nat.two_pow_pos w
    omega
  rw [BitVec.toNat_ofInt, Int.toNat_of_nonneg (Int.emod_nonneg v hw), Int.natCast_pow]
  rfl

theorem getLsbD_ofInt (z : Int) (i : Nat) :
    (BitVec.ofInt w z).getLsbD i = (decide (i < w) && z.testBit i) := by
  cases z with
  | ofNat n =>
    rw [Int.ofNat_eq_natCast, BitVec.ofInt_natCast, BitVec.getLsbD_ofNat]
    rfl
  | negSucc n =>
    rw [BitVec.ofInt_negSucc_eq_not_ofNat, BitVec.getLsbD_not, BitVec.getLsbD_ofNat]
    by_cases hi : i < w <;> simp [hi, Int.testBit]

theorem testBit_toInt (x : BitVec w) (i : Nat) :
    x.toInt.testBit i = if i < w then x.getLsbD i else x.msb := by
  have hcut : (BitVec.ofInt (i + 1) x.toInt).getLsbD i = x.toInt.testBit i := by
    rw [getLsbD_ofInt, decide_eq_true (Nat.lt_succ_self i), Bool.true_and]
  have hextended : (x.signExtend (i + 1)).getLsbD i = if i < w then x.getLsbD i else x.msb := by
    rw [BitVec.getLsbD_signExtend, decide_eq_true (Nat.lt_succ_self i), Bool.true_and]
  exact hcut.symm.trans hextended

/-- An integer fits in a width, its sign included. -/
theorem toInt_ofInt_of_natAbs_lt {z : Int} {k : Nat} (h : z.natAbs < 2 ^ k) :
    (BitVec.ofInt (k + 1) z).toInt = z := by
  have hpow : ((2 ^ k : Nat) : Int) = 2 ^ k := by norm_cast
  apply BitVec.toInt_ofInt_eq_self (by omega)
  · rw [Nat.add_sub_cancel]
    omega
  · rw [Nat.add_sub_cancel]
    omega

/-- Two integers are each kept by a width that has room for both. -/
theorem toInt_ofInt_of_max (a b : Int) :
    (BitVec.ofInt (max a.natAbs.log2 b.natAbs.log2 + 2) a).toInt = a ∧
    (BitVec.ofInt (max a.natAbs.log2 b.natAbs.log2 + 2) b).toInt = b := by
  have hfits : ∀ {n k : Nat}, n.log2 ≤ k → n < 2 ^ (k + 1) := fun h =>
    Nat.lt_of_lt_of_le Nat.lt_log2_self (Nat.pow_le_pow_right (by decide) (by omega))
  exact ⟨toInt_ofInt_of_natAbs_lt (hfits (Nat.le_max_left ..)),
    toInt_ofInt_of_natAbs_lt (hfits (Nat.le_max_right ..))⟩

theorem eq_of_testBit_eq {a b : Int} (h : ∀ i, a.testBit i = b.testBit i) : a = b := by
  obtain ⟨ha, hb⟩ := toInt_ofInt_of_max a b
  generalize max a.natAbs.log2 b.natAbs.log2 + 2 = k at ha hb
  rw [← ha, ← hb]
  refine congrArg BitVec.toInt (BitVec.eq_of_getLsbD_eq fun i _ => ?_)
  rw [getLsbD_ofInt, getLsbD_ofInt, h]

namespace Quantity

/-! ## Bit by bit -/

/-- The operation works bit by bit, at every width. -/
def ActsOnBits (op : ∀ {width : Nat}, BitVec width → BitVec width → BitVec width)
    (f : Bool → Bool → Bool) : Prop :=
  ∀ {width : Nat} (x y : BitVec width) (i : Nat), i < width →
    (op x y).getLsbD i = f (x.getLsbD i) (y.getLsbD i)

section

variable {op : ∀ {width : Nat}, BitVec width → BitVec width → BitVec width}
  {f : Bool → Bool → Bool}

theorem testBit_bitwise (h : ActsOnBits op f) (a b : Int) (i : Nat) :
    (bitwise op a b).testBit i = f (a.testBit i) (b.testBit i) := by
  obtain ⟨ha, hb⟩ := toInt_ofInt_of_max a b
  have hwidth : 0 < max a.natAbs.log2 b.natAbs.log2 + 2 := by omega
  rw [bitwise]
  generalize max a.natAbs.log2 b.natAbs.log2 + 2 = k at ha hb hwidth ⊢
  conv_rhs => rw [← ha, ← hb]
  simp only [testBit_toInt]
  by_cases hi : i < k
  · simp only [hi, if_true]
    exact h _ _ i hi
  · simp only [hi, if_false, BitVec.msb_eq_getLsbD_last]
    exact h _ _ (k - 1) (by omega)

/-- Cutting is done before the operation as well as after it. -/
theorem ofInt_bitwise (h : ActsOnBits op f) (a b : Int) :
    BitVec.ofInt w (bitwise op a b) = op (BitVec.ofInt w a) (BitVec.ofInt w b) := by
  refine BitVec.eq_of_getLsbD_eq fun i hi => ?_
  rw [h _ _ i hi, getLsbD_ofInt, getLsbD_ofInt, getLsbD_ofInt, testBit_bitwise h]
  simp [hi]

end

theorem actsOnBits_and : ActsOnBits (fun a b => a &&& b) and := fun _ _ _ _ => BitVec.getLsbD_and

theorem actsOnBits_or : ActsOnBits (fun a b => a ||| b) or := fun _ _ _ _ => BitVec.getLsbD_or

theorem actsOnBits_xor : ActsOnBits (fun a b => a ^^^ b) xor := fun _ _ _ _ => BitVec.getLsbD_xor

theorem bitwise_and (a b : Int) : bitwise (fun a b => a &&& b) a b = Int.land a b :=
  eq_of_testBit_eq fun i => (testBit_bitwise actsOnBits_and a b i).trans (Int.testBit_land a b i).symm

theorem bitwise_or (a b : Int) : bitwise (fun a b => a ||| b) a b = Int.lor a b :=
  eq_of_testBit_eq fun i => (testBit_bitwise actsOnBits_or a b i).trans (Int.testBit_lor a b i).symm

theorem bitwise_xor (a b : Int) : bitwise (fun a b => a ^^^ b) a b = Int.xor a b :=
  eq_of_testBit_eq fun i => (testBit_bitwise actsOnBits_xor a b i).trans (Int.testBit_lxor a b i).symm

end Quantity
end Chip8
