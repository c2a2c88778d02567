/-
Arithmetic between registers. Result and flag together are exact: they are the
one solution of an equation over the integers between them and the operands, in
which the flag stands for what the byte of the result cannot hold. Where the
result goes to `VF` the flag overwrites it, and is still the one of the solution.

The bitwise operations, loading and adding a constant have no such flag. All of
them take their operands before they write anything, so it does not matter
which of the registers are the same.
-/
import Chip8.Proofs.Instruction

namespace Chip8

/-! ## Equations -/

theorem toNat_decide (p : Prop) [Decidable p] : ((decide p).toNat : Int) = if p then 1 else 0 := by
  by_cases h : p <;> simp [h]

section Equations

variable {a b : Byte} {r f : Int}

theorem add_solves (hr : 0 ≤ r ∧ r ≤ 255) : 256 * f + r = a.toNat + b.toNat ↔
    r = (a + b).toNat ∧ f = (decide (256 ≤ a.toNat + b.toNat)).toNat := by
  rw [toNat_decide, BitVec.toNat_add]
  omega

theorem sub_solves (hr : 0 ≤ r ∧ r ≤ 255) : r = a.toNat - b.toNat + 256 * (1 - f) ↔
    r = (a - b).toNat ∧ f = (decide (b ≤ a)).toNat := by
  rw [toNat_decide, BitVec.toNat_sub]
  simp only [BitVec.le_def]
  omega

/-- Here the flag is the low end, so it is the flag that has to be in range. -/
theorem half_solves (hf : f = 0 ∨ f = 1) : 2 * r + f = a.toNat ↔
    r = (a >>> 1).toNat ∧ f = (a.getLsbD 0).toNat := by
  have hlow : a.getLsbD 0 = decide (a.toNat % 2 = 1) := Nat.testBit_zero a.toNat
  rw [hlow, toNat_decide, BitVec.toNat_ushiftRight, Nat.shiftRight_eq_div_pow]
  omega

theorem double_solves (hr : 0 ≤ r ∧ r ≤ 255) : 256 * f + r = 2 * a.toNat ↔
    r = (a <<< 1).toNat ∧ f = a.msb.toNat := by
  rw [BitVec.msb_eq_decide, toNat_decide, BitVec.toNat_shiftLeft, Nat.shiftLeft_eq]
  omega

end Equations

namespace Machine

/-! ## Effects -/

/-- What a shift works on, as an integer. -/
def shifted (m : Machine) (x y : Register) : Int :=
  if m.dialect.shiftsInPlace then m.value x else m.value y

/-- What an operation with a flag leaves: a result in a register and a bit in `VF`
that solve an equation, nothing else being changed. The equation has no other
solution in bytes and bits, and the flag is that of the solution even where it
takes the place of the result. -/
structure Settles (m m' : Machine) (x : Register) (equation : Int → Int → Prop) : Prop where
  flag_bit : m'.value .flag = 0 ∨ m'.value .flag = 1
  solves : x ≠ .flag → equation (m'.value x) (m'.value .flag)
  determined : ∃ result, (0 ≤ result ∧ result ≤ 255) ∧ equation result (m'.value .flag) ∧
    ∀ r f, 0 ≤ r ∧ r ≤ 255 → f = 0 ∨ f = 1 → equation r f → r = result ∧ f = m'.value .flag
  others : ∀ r, r ≠ x → r ≠ .flag → m'.register r = m.register r
  rest : m' = { m with registers := m'.registers }

/-- What an operation without a flag leaves: a result in a register, and zero in
`VF` if the operation clears it, nothing else being changed. -/
structure Assigns (m m' : Machine) (x : Register) (result : Nat) (clears : Bool) : Prop where
  result : clears = false ∨ x ≠ .flag → (m'.register x).toNat = result
  cleared : clears = true → m'.register .flag = 0
  flag_kept : clears = false → x ≠ .flag → m'.register .flag = m.register .flag
  others : ∀ r, r ≠ x → r ≠ .flag → m'.register r = m.register r
  rest : m' = { m with registers := m'.registers }

variable (m : Machine) (x y : Register)

/-! ## What is written -/

theorem register_yield (b : Byte) (r : Register) :
    (m.yield x b).register r = if x = r then b else m.register r :=
  m.registers.read_write x r b

theorem register_yieldFlagged (b : Byte) (c : Bool) (r : Register) :
    (m.yieldFlagged x b c).register r =
      if Register.flag = r then (if c then 1 else 0) else if x = r then b else m.register r := by
  unfold yieldFlagged register RegisterFile.writeFlag
  rw [RegisterFile.read_write, RegisterFile.read_write]

theorem value_flag_yieldFlagged (b : Byte) (c : Bool) :
    (m.yieldFlagged x b c).value .flag = c.toNat := by
  rw [value, register_yieldFlagged, if_pos rfl]
  cases c <;> rfl

/-- Writing the solution of an equation settles it. -/
theorem settles_yieldFlagged {b : Byte} {c : Bool} {equation : Int → Int → Prop}
    (h : ∀ r f : Int, 0 ≤ r ∧ r ≤ 255 → f = 0 ∨ f = 1 →
      (equation r f ↔ r = b.toNat ∧ f = c.toNat)) :
    m.Settles (m.yieldFlagged x b c) x equation := by
  have hflag := m.value_flag_yieldFlagged x b c
  have hbyte : 0 ≤ (b.toNat : Int) ∧ (b.toNat : Int) ≤ 255 := by omega
  have hbit : (c.toNat : Int) = 0 ∨ (c.toNat : Int) = 1 := by cases c <;> simp
  have hsolution : equation b.toNat c.toNat := (h _ _ hbyte hbit).2 ⟨rfl, rfl⟩
  refine ⟨by rwa [hflag], fun hx => ?_, ⟨b.toNat, hbyte, by rwa [hflag], fun r f hr hf heq => ?_⟩,
    fun r hx hr => ?_, rfl⟩
  · rwa [hflag, value, register_yieldFlagged, if_neg (Ne.symm hx), if_pos rfl]
  · rw [hflag]
    exact (h r f hr hf).1 heq
  · rw [register_yieldFlagged, if_neg (Ne.symm hr), if_neg (Ne.symm hx)]

theorem assigns_yield (b : Byte) : m.Assigns (m.yield x b) x b.toNat false where
  result _ := by rw [register_yield, if_pos rfl]
  cleared h := by cases h
  flag_kept _ hx := by rw [register_yield, if_neg hx]
  others r hx _ := by rw [register_yield, if_neg (Ne.symm hx)]
  rest := rfl

theorem assigns_yieldLogic (b : Byte) :
    m.Assigns (m.yieldLogic x b) x b.toNat m.dialect.logicClearsFlag := by
  unfold yieldLogic
  cases m.dialect.logicClearsFlag with
  | false => exact m.assigns_yield x b
  | true =>
    refine ⟨fun h => ?_, fun _ => ?_, nofun, fun r hx hr => ?_, rfl⟩
    · have hx : x ≠ .flag := h.resolve_left (by decide)
      rw [if_pos rfl, register_yieldFlagged, if_neg (Ne.symm hx), if_pos rfl]
    · rw [if_pos rfl, register_yieldFlagged, if_pos rfl]
      rfl
    · rw [if_pos rfl, register_yieldFlagged, if_neg (Ne.symm hr), if_neg (Ne.symm hx)]

theorem toNat_shiftSource : ((m.shiftSource x y).toNat : Int) = m.shifted x y := by
  unfold shiftSource shifted value
  split <;> rfl

/-- **Arithmetic is exact.** In every dialect and whichever registers are the
same, each of these operations is carried out, and changes the register of its
result and `VF` only. Sum, differences and shifts leave the one byte and the one
bit that an equation between the integers has for a solution. Bitwise operations
leave their result, and a zero in `VF` if the dialect has it so; copying, loading
and adding a constant leave `VF` alone. -/
theorem arithmetic_isExact (k : Byte) :
    m.HasEffect (.add x y) (fun m m' => m.Settles m' x fun r f =>
      256 * f + r = m.value x + m.value y) ∧
    m.HasEffect (.sub x y) (fun m m' => m.Settles m' x fun r f =>
      r = m.value x - m.value y + 256 * (1 - f)) ∧
    m.HasEffect (.subFrom x y) (fun m m' => m.Settles m' x fun r f =>
      r = m.value y - m.value x + 256 * (1 - f)) ∧
    m.HasEffect (.shiftRight x y) (fun m m' => m.Settles m' x fun r f =>
      2 * r + f = m.shifted x y) ∧
    m.HasEffect (.shiftLeft x y) (fun m m' => m.Settles m' x fun r f =>
      256 * f + r = 2 * m.shifted x y) ∧
    m.HasEffect (.or x y) (fun m m' => m.Assigns m' x
      ((m.register x).toNat ||| (m.register y).toNat) m.dialect.logicClearsFlag) ∧
    m.HasEffect (.and x y) (fun m m' => m.Assigns m' x
      ((m.register x).toNat &&& (m.register y).toNat) m.dialect.logicClearsFlag) ∧
    m.HasEffect (.xor x y) (fun m m' => m.Assigns m' x
      ((m.register x).toNat ^^^ (m.register y).toNat) m.dialect.logicClearsFlag) ∧
    m.HasEffect (.load x y) (fun m m' => m.Assigns m' x (m.register y).toNat false) ∧
    m.HasEffect (.loadByte x k) (fun m m' => m.Assigns m' x k.toNat false) ∧
    m.HasEffect (.addByte x k) (fun m m' => m.Assigns m' x
      (((m.register x).toNat + k.toNat) % 256) false) := by
  and_intros <;> refine hasEffect fun m _ _ _ => ⟨_, rfl, ?_⟩
  · exact m.settles_yieldFlagged x fun r f hr _ => add_solves hr
  · exact m.settles_yieldFlagged x fun r f hr _ => sub_solves hr
  · exact m.settles_yieldFlagged x fun r f hr _ => sub_solves hr
  · rw [← toNat_shiftSource]
    exact m.settles_yieldFlagged x fun r f _ hf => half_solves hf
  · rw [← toNat_shiftSource]
    exact m.settles_yieldFlagged x fun r f hr _ => double_solves hr
  · rw [← BitVec.toNat_or]
    exact m.assigns_yieldLogic x _
  · rw [← BitVec.toNat_and]
    exact m.assigns_yieldLogic x _
  · rw [← BitVec.toNat_xor]
    exact m.assigns_yieldLogic x _
  · exact m.assigns_yield x _
  · exact m.assigns_yield x _
  · rw [← BitVec.toNat_add]
    exact m.assigns_yield x _

end Machine
end Chip8
