/-
Masking after every step and masking once at the end come to the same. What a step
leaves of an integer modulo a power of two depends on nothing but what there was
of it, for every step but a shift to the right; so a quantity that is adjusted again
and again stays the residue of an integer that is never masked. A shift is refused
only where the unmasked result would not fit into memory.
-/
import Chip8.Except
import Chip8.Proofs.Quantity.Bits
import Mathlib.Data.List.Induction

namespace Chip8.Quantity

variable {w : Nat}

/-! ## Unbounded integers -/

/-- What a step means for integers of any size. -/
def Adjustment.unbounded : Adjustment → Int → Int
  | .add n, v => v + n
  | .subtract n, v => v - n
  | .multiply n, v => v * n
  | .exclusiveOr n, v => Int.xor v n
  | .inclusiveOr n, v => Int.lor v n
  | .conjoin n, v => Int.land v n
  | .shiftLeft count, v => v * 2 ^ count
  | .shiftRight count, v => v / 2 ^ count

theorem Adjustment.apply_eq_unbounded (a : Adjustment) (v : Int) : a.apply v = a.unbounded v := by
  cases a with
  | add | subtract | multiply => rfl
  | exclusiveOr n => exact bitwise_xor v n
  | inclusiveOr n => exact bitwise_or v n
  | conjoin n => exact bitwise_and v n
  | shiftLeft count => exact Int.shiftLeft_eq v count
  | shiftRight count =>
    rw [apply, Int.shiftRight_eq_div_pow, unbounded]
    norm_cast

/-! ## One step -/

/-- The low bits of the result come from the low bits alone. -/
def Adjustment.KeepsLow : Adjustment → Prop
  | .shiftRight _ => False
  | _ => True

theorem Adjustment.ofInt_apply_congr {a : Adjustment} (ha : a.KeepsLow) {v v' : Int}
    (h : BitVec.ofInt w v = BitVec.ofInt w v') :
    BitVec.ofInt w (a.apply v) = BitVec.ofInt w (a.apply v') := by
  cases a with
  | add n => simp only [apply, BitVec.ofInt_add, h]
  | subtract n => simp only [apply, Int.sub_eq_add_neg, BitVec.ofInt_add, h]
  | multiply n => simp only [apply, BitVec.ofInt_mul, h]
  | exclusiveOr n => simp only [apply, ofInt_bitwise actsOnBits_xor, h]
  | inclusiveOr n => simp only [apply, ofInt_bitwise actsOnBits_or, h]
  | conjoin n => simp only [apply, ofInt_bitwise actsOnBits_and, h]
  | shiftLeft count => simp only [apply, Int.shiftLeft_eq, BitVec.ofInt_mul, h]
  | shiftRight count => exact ha.elim

/-- **One step.** It makes no difference whether a step starts from an integer or from
its residue. -/
theorem adjust_ofInt {a : Adjustment} (ha : a.KeepsLow) (v : Int) :
    adjust (BitVec.ofInt w v) a = BitVec.ofInt w (a.unbounded v) := by
  have hmasked : BitVec.ofInt w ((BitVec.ofInt w v).toNat : Int) = BitVec.ofInt w v := by
    rw [BitVec.ofInt_natCast, BitVec.ofNat_toNat, BitVec.setWidth_eq]
  rw [adjust_eq_modify, modify, ← a.apply_eq_unbounded]
  exact a.ofInt_apply_congr ha hmasked

/-! ## Many steps -/

/-- A quantity after some steps, masked after each. -/
def adjustAll (q : BitVec w) (as : List Adjustment) : BitVec w := as.foldl adjust q

/-- An integer after some steps, never masked. -/
def unboundedAll (v : Int) (as : List Adjustment) : Int := as.foldl (fun v a => a.unbounded v) v

theorem adjustAll_ofInt {as : List Adjustment} (h : ∀ a ∈ as, a.KeepsLow) (v : Int) :
    adjustAll (BitVec.ofInt w v) as = BitVec.ofInt w (unboundedAll v as) := by
  induction as generalizing v with
  | nil => rfl
  | cons a as ih =>
    have hfirst := adjust_ofInt (w := w) (h a List.mem_cons_self) v
    have hrest := ih (fun a ha => h a (List.mem_cons_of_mem _ ha)) (a.unbounded v)
    rw [adjustAll, List.foldl_cons, hfirst]
    exact hrest

/-! ## Refused steps -/

section Refused

variable {q q' : BitVec w} {a : Adjustment}

/-- The step shifts something to the left by more than there is memory. -/
def Adjustment.Overruns (a : Adjustment) (q : BitVec w) : Prop :=
  q.toNat ≠ 0 ∧ ∃ count, a = .shiftLeft count ∧ bitLimit < count

/-- A quantity has one digit, so there is room for digits wherever there is room for bits. -/
theorem bitLimit_lt_of_shiftedDigits (hw : w ≤ digitBits) (hq : q.toNat ≠ 0) {count : Nat}
    (h : digitLimit < shiftedDigits q.toNat count) : bitLimit < count := by
  have hlog : q.toNat.log2 < digitBits :=
    (Nat.log2_lt hq).2 (Nat.lt_of_lt_of_le q.isLt (Nat.pow_le_pow_right (by decide) hw))
  simp only [digitLimit, shiftedDigits, digitBits, bitLimit] at h hlog ⊢
  omega

theorem Adjustment.refusal?_eq_none_iff (hw : w ≤ digitBits) :
    a.refusal? q.toNat = none ↔ ¬ a.Overruns q := by
  cases a with
  | shiftLeft count =>
    by_cases hq : q.toNat = 0
    · simp [refusal?, Overruns, hq]
    · have hdigits : ¬ bitLimit < count → ¬ digitLimit < shiftedDigits q.toNat count :=
        mt (bitLimit_lt_of_shiftedDigits hw hq)
      by_cases hcount : bitLimit < count
      · simp only [refusal?, Overruns, hq, hcount, if_true, if_false]
        split <;> simp [hq, hcount]
      · simp [refusal?, Overruns, hq, hcount, hdigits hcount]
  | _ => simp [refusal?, Overruns]

theorem tryAdjust_eq_ok_iff (hw : w ≤ digitBits) :
    tryAdjust q a = .ok q' ↔ ¬ a.Overruns q ∧ q' = adjust q a := by
  rw [← Adjustment.refusal?_eq_none_iff hw, tryAdjust]
  cases a.refusal? q.toNat <;> simp [eq_comm]

/-- Some steps, until one is refused. -/
def tryAll (q : BitVec w) (as : List Adjustment) : Except ShiftError (BitVec w) := as.foldlM tryAdjust q

/-- **Many steps.** They are all taken unless one overruns, and then they do what they do without
any limit. -/
theorem tryAll_eq_ok_iff (hw : w ≤ digitBits) (as : List Adjustment) : tryAll q as = .ok q' ↔
    (∀ before a, before ++ [a] <+: as → ¬ a.Overruns (adjustAll q before)) ∧ q' = adjustAll q as := by
  induction as using List.reverseRecOn generalizing q' with
  | nil =>
    have hnone : ∀ before (a : Adjustment), ¬ before ++ [a] <+: [] := fun before a h => by
      simpa using List.prefix_nil.1 h
    constructor
    · rintro h
      exact ⟨fun before a h => absurd h (hnone before a), (Except.ok.inj h).symm⟩
    · rintro ⟨-, rfl⟩
      rfl
  | append_singleton as a ih =>
    have hlast : adjustAll q (as ++ [a]) = adjust (adjustAll q as) a := by
      rw [adjustAll, List.foldl_append, adjustAll]
      rfl
    have hsplit : tryAll q (as ++ [a]) = tryAll q as >>= fun q => tryAdjust q a := by
      simp [tryAll, List.foldlM_append]
    rw [hsplit, hlast]
    constructor
    · intro h
      obtain ⟨q₁, hall, hnext⟩ := ok_of_bind h
      obtain ⟨hroom, rfl⟩ := ih.1 hall
      obtain ⟨hroom', rfl⟩ := (tryAdjust_eq_ok_iff hw).1 hnext
      refine ⟨fun before b hb => ?_, rfl⟩
      rcases List.prefix_concat_iff.1 hb with heq | hb
      · obtain ⟨rfl, hstep⟩ := List.append_inj' heq rfl
        cases hstep
        exact hroom'
      · exact hroom before b hb
    · rintro ⟨hroom, rfl⟩
      have hall : tryAll q as = .ok (adjustAll q as) :=
        ih.2 ⟨fun before b hb => hroom before b (hb.trans (List.prefix_append as [a])), rfl⟩
      have hnext : tryAdjust (adjustAll q as) a = .ok (adjust (adjustAll q as) a) :=
        (tryAdjust_eq_ok_iff hw).2 ⟨hroom as a List.prefix_rfl, rfl⟩
      rw [hall]
      exact hnext

end Refused

/-- What overruns masked overruns unmasked too. -/
theorem tryAll_ofInt (hw : w ≤ digitBits) {as : List Adjustment} (h : ∀ a ∈ as, a.KeepsLow) (v : Int) :
    tryAll (BitVec.ofInt w v) as = .ok (adjustAll (BitVec.ofInt w v) as) ∨
      ∃ before count, before ++ [.shiftLeft count] <+: as ∧ bitLimit < count ∧
        unboundedAll v before ≠ 0 := by
  by_cases hroom : ∀ before a, before ++ [a] <+: as → ¬ a.Overruns (adjustAll (BitVec.ofInt w v) before)
  · exact .inl ((tryAll_eq_ok_iff hw as).2 ⟨hroom, rfl⟩)
  · push Not at hroom
    obtain ⟨before, a, htaken, hne, count, rfl, hcount⟩ := hroom
    refine .inr ⟨before, count, htaken, hcount, fun hzero => hne ?_⟩
    have hbefore : ∀ a ∈ before, a.KeepsLow := fun a ha =>
      h a (htaken.subset (List.mem_append_left _ ha))
    rw [adjustAll_ofInt hbefore, hzero]
    simp

/-- **Masking after every step is masking once.** Steps other than shifts to the right, on a
quantity of any width, leave the residue of what they leave of the integer that is never masked;
after each of them the value is in range. All of them are taken, unless the unmasked integer
itself is shifted by more than there is memory. -/
theorem steps_areResidues (w : Nat) :
    (∀ (v : Int) (as : List Adjustment), (∀ a ∈ as, a.KeepsLow) →
      ((adjustAll (BitVec.ofInt w v) as).toNat : Int) = unboundedAll v as % 2 ^ w ∧
      ∀ before, before <+: as → 0 ≤ ((adjustAll (BitVec.ofInt w v) before).toNat : Int) ∧
        ((adjustAll (BitVec.ofInt w v) before).toNat : Int) ≤ 2 ^ w - 1) ∧
    (w ≤ digitBits → ∀ (v : Int) (as : List Adjustment), (∀ a ∈ as, a.KeepsLow) →
      tryAll (BitVec.ofInt w v) as = .ok (adjustAll (BitVec.ofInt w v) as) ∨
      ∃ before count, before ++ [.shiftLeft count] <+: as ∧ bitLimit < count ∧
        unboundedAll v before ≠ 0) := by
  refine ⟨fun v as h => ⟨?_, fun before _ => ?_⟩, fun hw v as h => tryAll_ofInt hw h v⟩
  · rw [adjustAll_ofInt h, toNat_ofInt_cast]
  · have hlt := (adjustAll (BitVec.ofInt w v) before).isLt
    have hpow : ((2 ^ w : Nat) : Int) = 2 ^ w := by norm_cast
    omega

/-- All kinds of steps but one, with numbers below zero and wider than an address. -/
def mixedSteps : List Adjustment :=
  [.multiply (-3), .add 0x12345, .conjoin (-16), .inclusiveOr 5, .shiftLeft 3, .exclusiveOr (-1),
    .subtract 0x10000]

theorem mixedSteps_areResidues : (∀ a ∈ mixedSteps, a.KeepsLow) ∧ 12 ≤ digitBits ∧
    unboundedAll (-70000) mixedSteps % 2 ^ 12 = 0x357 ∧
    tryAll (BitVec.ofInt 12 (-70000)) mixedSteps = .ok 0x357 := by
  have hsteps : ∀ a ∈ mixedSteps, a.KeepsLow := by simp [mixedSteps, Adjustment.KeepsLow]
  have hwidth : 12 ≤ digitBits := by decide
  have hlast : adjustAll (BitVec.ofInt 12 (-70000)) mixedSteps = 0x357 := by decide
  obtain ⟨hresidue, hroom⟩ := steps_areResidues 12
  refine ⟨hsteps, hwidth, ?_, ?_⟩
  · rw [← (hresidue (-70000) mixedSteps hsteps).1, hlast]
    rfl
  · rcases hroom hwidth (-70000) mixedSteps hsteps with hall | ⟨before, count, htaken, hcount, -⟩
    · rw [hall, hlast]
    · have hmem : .shiftLeft count ∈ mixedSteps := htaken.subset (by simp)
      have hthree : count = 3 := by simpa [mixedSteps] using hmem
      exact absurd (hthree ▸ hcount) (by decide)

/-- A shift to the right lets bits in that were masked before. -/
example : adjust (BitVec.ofInt 4 16) (.shiftRight 1) ≠
    BitVec.ofInt 4 ((Adjustment.shiftRight 1).unbounded 16) := by decide

end Chip8.Quantity
