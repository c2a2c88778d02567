/-
Carrying out an instruction in plain numbers is carrying it out on the machine
of bit vectors: no access misses, no number leaves its range, and the failures
are the same. One lemma for each helper of an instruction, the two block
transfers by induction on their registers, then one case for each instruction.
-/
import Chip8.Proofs.Memory
import Chip8.Proofs.Plain.Drawing
import Chip8.Proofs.Step

namespace Chip8

/-! ## Arithmetic reduced by hand -/

section Arithmetic

variable {w : Nat} (a b : BitVec w)

theorem map_ofInt_toNat (bs : List (BitVec w)) :
    (bs.map fun b => (b.toNat : Int)).map (BitVec.ofInt w) = bs := by
  rw [List.map_map]
  exact List.map_id'' (fun b => by simp) bs

theorem ofInt_add_toNat : BitVec.ofInt w (a.toNat + b.toNat) = a + b := by
  rw [BitVec.ofInt_add, ofInt_toNat, ofInt_toNat, BitVec.setWidth_eq, BitVec.setWidth_eq]

theorem ofInt_sub_toNat : BitVec.ofInt w (a.toNat - b.toNat) = a - b := by
  rw [Int.sub_eq_add_neg, BitVec.ofInt_add, BitVec.ofInt_neg, ofInt_toNat, ofInt_toNat,
    BitVec.setWidth_eq, BitVec.setWidth_eq, BitVec.sub_eq_add_neg]

theorem ofInt_lor_toNat : BitVec.ofInt w (Int.lor a.toNat b.toNat) = a ||| b := by
  have h : Int.lor a.toNat b.toNat = ((a ||| b).toNat : Int) := by
    rw [BitVec.toNat_or]
    rfl
  rw [h, ofInt_toNat, BitVec.setWidth_eq]

theorem ofInt_land_toNat : BitVec.ofInt w (Int.land a.toNat b.toNat) = a &&& b := by
  have h : Int.land a.toNat b.toNat = ((a &&& b).toNat : Int) := by
    rw [BitVec.toNat_and]
    rfl
  rw [h, ofInt_toNat, BitVec.setWidth_eq]

theorem ofInt_xor_toNat : BitVec.ofInt w (Int.xor a.toNat b.toNat) = a ^^^ b := by
  have h : Int.xor a.toNat b.toNat = ((a ^^^ b).toNat : Int) := by
    rw [BitVec.toNat_xor]
    rfl
  rw [h, ofInt_toNat, BitVec.setWidth_eq]

theorem ofInt_half : BitVec.ofInt w ((a.toNat : Int) / 2) = a >>> 1 := by
  have h : (a.toNat : Int) / (2 : Int) = ((a >>> 1).toNat : Int) := by
    rw [BitVec.toNat_ushiftRight, Nat.shiftRight_eq_div_pow]
    rfl
  rw [h, ofInt_toNat, BitVec.setWidth_eq]

theorem ofInt_double : BitVec.ofInt w ((a.toNat : Int) * 2) = a <<< 1 := by
  have h : (a.toNat : Int) * (2 : Int) = ((a.toNat * 2 : Nat) : Int) := rfl
  rw [h, BitVec.ofInt_natCast]
  apply BitVec.eq_of_toNat_eq
  rw [BitVec.toNat_ofNat, BitVec.toNat_shiftLeft, Nat.shiftLeft_eq, Nat.pow_one]

theorem ofInt_div_toNat : BitVec.ofInt w ((a.toNat : Int) / b.toNat) = a / b := by
  have h : (a.toNat : Int) / b.toNat = ((a / b).toNat : Int) := by
    rw [BitVec.toNat_udiv]
    rfl
  rw [h, ofInt_toNat, BitVec.setWidth_eq]

theorem ofInt_mod_toNat : BitVec.ofInt w ((a.toNat : Int) % b.toNat) = a % b := by
  have h : (a.toNat : Int) % b.toNat = ((a % b).toNat : Int) := by
    rw [BitVec.toNat_umod]
    rfl
  rw [h, ofInt_toNat, BitVec.setWidth_eq]

theorem beq_toNat : ((a.toNat : Int) == (b.toNat : Int)) = (a == b) := by
  rw [Bool.eq_iff_iff]
  simp [BitVec.toNat_inj]

theorem decide_toNat_le : decide ((a.toNat : Int) ≤ b.toNat) = decide (a ≤ b) := by
  rw [decide_eq_decide, BitVec.le_def]
  omega

theorem decide_lt_toNat_add (a b : Byte) :
    decide ((255 : Int) < a.toNat + b.toNat) = decide (256 ≤ a.toNat + b.toNat) := by
  rw [decide_eq_decide]
  omega

theorem testBit_seven (a : Byte) : Int.testBit a.toNat 7 = a.msb := by
  rw [BitVec.msb_eq_getLsbD_last]
  rfl

end Arithmetic

namespace Machine

variable (m : Machine)

/-! ## Helpers -/

theorem plain_skipIf (condition : Bool) : m.plain.skipIf condition = (m.skipIf condition).plain := by
  cases condition with
  | false => rfl
  | true =>
    have h : BitVec.ofInt 16 (m.pc.toNat + 2) = m.pc + 2 := ofInt_add_toNat m.pc 2
    have h' : m.plain.skipIf true = (m.setPc (m.pc.toNat + 2)).plain := m.plain_setPc _
    rw [h', setPc, h]
    rfl

theorem plain_yieldFlagged (x : Register) (result : Int) (flag : Bool) :
    m.plain.yieldFlagged x result flag =
      some (m.yieldFlagged x (BitVec.ofInt 8 result) flag).plain := by
  rw [Plain.yieldFlagged, plain_setRegister]
  exact (m.yield x (BitVec.ofInt 8 result)).plain_setFlag flag

theorem plain_yieldLogic (x : Register) (result : Int) :
    m.plain.yieldLogic x result = some (m.yieldLogic x (BitVec.ofInt 8 result)).plain := by
  have hdialect : (m.yield x (BitVec.ofInt 8 result)).dialect = m.dialect := rfl
  rw [Plain.yieldLogic, plain_setRegister, yieldLogic]
  simp only [Option.bind_eq_bind, Option.bind_some, plain_dialect, hdialect]
  split
  · exact (m.yield x (BitVec.ofInt 8 result)).plain_setFlag false
  · rfl

theorem plain_shiftSource (x y : Register) :
    m.plain.shiftSource x y = some ((m.shiftSource x y).toNat : Int) := by
  unfold Plain.shiftSource shiftSource
  rw [plain_register, plain_register, plain_dialect]
  split <;> rfl

theorem plain_passBlock (x : Register) : m.plain.passBlock x = (m.passBlock x).plain := by
  unfold Plain.passBlock passBlock
  rw [plain_dialect]
  split
  · have h : BitVec.ofInt 12 (m.index.toNat + (x.toNat + 1)) = m.index + BitVec.ofNat 12 (x.toNat + 1) := by
      rw [BitVec.ofInt_add, ofInt_toNat, BitVec.setWidth_eq, ← BitVec.ofInt_natCast]
      rfl
    rw [plain_modifyIndex, setIndex, h]
  · rfl

theorem plain_selected (x : Register) :
    m.plain.selected (m.register x).toNat = some (m.selected x) := by
  unfold Plain.selected
  by_cases h : (m.register x).toNat ≤ 15
  · have hrange : 0 ≤ ((m.register x).toNat : Int) ∧ ((m.register x).toNat : Int) ≤ 0xF := by omega
    have hlt : (m.register x).toNat < 16 := by omega
    have hkeys : m.plain.keys[(m.register x).toNat]? =
        some (m.keypad.isHeld (BitVec.ofNat 4 (m.register x).toNat)) := by
      simp [plain, Keypad.isHeld, hlt, Nat.mod_eq_of_lt hlt]
    rw [if_pos hrange, Plain.at?_natCast, hkeys, selected_of_le h]
    rfl
  · have hrange : ¬ (0 ≤ ((m.register x).toNat : Int) ∧ ((m.register x).toNat : Int) ≤ 0xF) := by omega
    rw [if_neg hrange, selected_of_lt (by omega)]

/-! ## Blocks of registers -/

theorem plain_storeBlock {k n : Nat} (h : k + n ≤ 16) : m.plain.storeBlock (List.range' k n) =
    some (m.poke (m.index.toNat + k) ((m.registers.toList.drop k).take n)).plain := by
  induction n generalizing m k with
  | zero => simp [Plain.storeBlock, poke, Memory.writeBytes]
  | succ n ih =>
    have hk : k < m.registers.toList.length := by
      simp [RegisterFile.toList]
      omega
    have hreg : Plain.at? m.plain.registers k = some (m.registers.toList[k].toNat : Int) :=
      Plain.at?_numbers m.registers.values (by omega)
    have hmem : m.memory.write (m.index.toNat + k) m.registers.toList[k].toNat =
        m.memory.set (BitVec.ofInt 12 (m.index.toNat + k)) m.registers.toList[k] := by
      rw [Memory.write, ofInt_toNat, BitVec.setWidth_eq]
    have hwrite := m.plain_write (m.index.toNat + k) m.registers.toList[k].toNat
    rw [hmem] at hwrite
    have hrest := ih { m with memory := m.memory.set (BitVec.ofInt 12 (m.index.toNat + k)) m.registers.toList[k] }
      (show k + 1 + n ≤ 16 by omega)
    rw [Int.natCast_add_one, ← Int.add_assoc] at hrest
    rw [List.range'_succ, Plain.storeBlock, hreg, List.drop_eq_getElem_cons hk, List.take_succ_cons]
    simp only [Option.bind_eq_bind, Option.bind_some, plain_index, hwrite]
    exact hrest

/-- The machine with its registers from `k` to before `k + n` loaded from the index on. -/
def loaded (k n : Nat) : Machine :=
  { m with registers := ⟨m.registers.values.mapFinIdx fun j b _ =>
      if k ≤ j ∧ j < k + n then m.memory.read (m.index.toNat + j) else b⟩ }

theorem loaded_zero (k : Nat) : m.loaded k 0 = m := by
  have h : (m.registers.values.mapFinIdx fun j b _ => if k ≤ j ∧ j < k + 0
      then m.memory.read (m.index.toNat + j) else b) = m.registers.values := by
    refine Vector.ext fun j hj => ?_
    have hnone : ¬ (k ≤ j ∧ j < k + 0) := by omega
    rw [Vector.getElem_mapFinIdx, if_neg hnone]
  rw [loaded, h]

theorem loaded_succ (k n : Nat) (h : k < 16) : m.loaded k (n + 1) =
    { m with registers := ⟨m.registers.values.set k (m.memory.read (m.index.toNat + k))⟩ }.loaded (k + 1) n := by
  simp only [loaded]
  refine congrArg (fun values => { m with registers := ⟨values⟩ }) (Vector.ext fun j hj => ?_)
  rw [Vector.getElem_mapFinIdx, Vector.getElem_mapFinIdx]
  by_cases hj : j = k
  · subst hj
    simp
  · have hiff : (k ≤ j ∧ j < k + (n + 1)) ↔ (k + 1 ≤ j ∧ j < k + 1 + n) := by omega
    have hne : k ≠ j := fun h => hj h.symm
    simp [hiff, Vector.getElem_set_ne, hne]

theorem plain_loadBlock {k n : Nat} (h : k + n ≤ 16) :
    m.plain.loadBlock (List.range' k n) = some (m.loaded k n).plain := by
  induction n generalizing m k with
  | zero =>
    rw [loaded_zero]
    rfl
  | succ n ih =>
    have hread := m.plain_read (m.index.toNat + k)
    have hput := Plain.putByte?_numbers m.registers.values (show k < 16 by omega)
      (m.memory.read (m.index.toNat + k))
    rw [List.range'_succ, Plain.loadBlock, plain_index, hread, loaded_succ m k n (by omega)]
    simp only [Option.bind_eq_bind, Option.bind_some, plain_registers, hput]
    exact ih { m with registers := ⟨m.registers.values.set k (m.memory.read (m.index.toNat + k))⟩ }
      (show k + 1 + n ≤ 16 by omega)

/-- Loading from `V0` on is loading a block. -/
theorem loaded_eq (n : Nat) : m.loaded 0 n =
    { m with registers := m.registers.loadBlock (m.memory.readBytes m.index.toNat n) } := by
  refine congrArg (fun values => { m with registers := ⟨values⟩ }) (Vector.ext fun j hj => ?_)
  rw [Vector.getElem_mapFinIdx, Vector.getElem_ofFn]
  by_cases hlt : j < n
  · simp [Memory.readBytes, hlt]
  · simp [Memory.readBytes, hlt]

/-! ## Instructions -/

theorem plain_ret (address : Word) (press : Option Key) :
    m.plain.execute .ret address.toNat press = some ((m.execute .ret address press).map plain) := by
  have hle := m.stack.depth_le
  by_cases h : m.stack.depth = 0
  · have hempty : (m.stack.depth : Int) = 0 := by omega
    simp only [Plain.execute, execute, plain_sp, hempty, if_true, CallStack.pop?_eq_none_iff.2 h]
    rfl
  · have hlive : ¬ (m.stack.depth : Int) = 0 := by omega
    have hroom : 0 < m.stack.depth := by omega
    have hdepth : (m.stack.depth : Int) - 1 = ((m.stack.depth - 1 : Nat) : Int) := by omega
    have hslot := Plain.at?_numbers m.stack.slots (show m.stack.depth - 1 < 16 by omega)
    simp only [Plain.execute, execute, plain_sp, hlive, if_false, hdepth, plain_slots, hslot,
      Option.bind_eq_bind, Option.bind_some, CallStack.pop?, hroom, dif_pos]
    have hpc := plain_setPc
      { m with stack := { slots := m.stack.slots, depth := m.stack.depth - 1, depth_le := by omega } }
      m.stack.slots[m.stack.depth - 1].toNat
    rw [setPc, ofInt_toNat, BitVec.setWidth_eq] at hpc
    exact congrArg (fun p => some (Except.ok p)) hpc

theorem plain_call (a : Address) (address : Word) (press : Option Key) :
    m.plain.execute (.call a) address.toNat press =
      some ((m.execute (.call a) address press).map plain) := by
  have hle := m.stack.depth_le
  by_cases h : m.stack.depth = 16
  · have hfull : (m.stack.depth : Int) = 16 := by omega
    simp only [Plain.execute, execute, plain_sp, hfull, if_true, CallStack.push?_eq_none_iff.2 h]
    rfl
  · have hnot : ¬ (m.stack.depth : Int) = 16 := by omega
    have hroom : m.stack.depth < 16 := by omega
    simp only [Plain.execute, execute, Plain.push, plain_sp, hnot, if_false, plain_slots, plain_pc,
      Plain.put?_numbers m.stack.slots hroom, Option.bind_eq_bind, Option.bind_some, CallStack.push?, hroom, dif_pos]
    have hgo := plain_setPc
      { m with stack := { slots := m.stack.slots.set m.stack.depth m.pc, depth := m.stack.depth + 1 } } a.toNat
    rw [setPc, ofInt_toNat] at hgo
    exact congrArg (fun p => some (Except.ok p)) hgo

theorem plain_storeDecimal (x : Register) (address : Word) (press : Option Key) :
    m.plain.execute (.storeDecimal x) address.toNat press =
      some ((m.execute (.storeDecimal x) address press).map plain) := by
  let b := m.register x
  have hhundreds : BitVec.ofInt 8 ((b.toNat : Int) / 100) = b / 100 := ofInt_div_toNat b 100
  have htens : BitVec.ofInt 8 ((b.toNat : Int) / 10 % 10) = b / 10 % 10 := by
    have h : (b.toNat : Int) / 10 = ((b / 10).toNat : Int) := by
      rw [BitVec.toNat_udiv]
      rfl
    rw [h]
    exact ofInt_mod_toNat (b / 10) 10
  have hones : BitVec.ofInt 8 ((b.toNat : Int) % 10) = b % 10 := ofInt_mod_toNat b 10
  have hlast : (m.index.toNat : Int) + 2 = m.index.toNat + 1 + 1 := by omega
  simp only [Plain.execute, plain_register, Option.bind_eq_bind, Option.bind_some, plain_index,
    plain_write, Option.map_some, Memory.write, hhundreds, htens, hones, hlast, b]
  rfl

theorem plain_execute (i : Instruction) (address : Word) (press : Option Key) :
    m.plain.execute i address.toNat press = some ((m.execute i address press).map plain) := by
  cases i with
  | clear => exact congrArg (fun p => some (Except.ok p)) m.plain_clear
  | ret => exact m.plain_ret address press
  | jump a =>
    have hself : ((a.toNat : Int) == address.toNat) = (a.setWidth 16 == address) := by
      rw [← beq_toNat, BitVec.toNat_setWidth_of_le (by omega)]
    have hgo := plain_setPc { m with halted := m.halted || a.setWidth 16 == address } a.toNat
    rw [setPc, ofInt_toNat] at hgo
    simp only [Plain.execute, hself]
    exact congrArg (fun p => some (Except.ok p)) hgo
  | call a => exact m.plain_call a address press
  | jumpOffset a =>
    simp only [Plain.execute, plain_register, Option.bind_eq_bind, Option.bind_some, plain_setPc,
      setPc, BitVec.ofInt_add, ofInt_toNat]
    rfl
  | skipEqByte x b | skipNeByte x b | skipEq x y | skipNe x y =>
    simp only [Plain.execute, plain_register, Option.bind_eq_bind, Option.bind_some, bne, beq_toNat,
      plain_skipIf]
    rfl
  | skipDown x | skipUp x =>
    simp only [Plain.execute, plain_register, Option.bind_eq_bind, Option.bind_some, plain_selected]
    cases h : m.selected x <;> simp [execute, h, Except.map, plain_skipIf]
  | loadByte x b =>
    simp only [Plain.execute, plain_setRegister, ofInt_toNat, BitVec.setWidth_eq]
    rfl
  | addByte x b =>
    simp only [Plain.execute, plain_register, Option.bind_eq_bind, Option.bind_some,
      plain_setRegister, ofInt_add_toNat]
    rfl
  | random x b =>
    simp only [Plain.execute, plain_random, plain_setRegister, ofInt_land_toNat]
    rfl
  | load x y =>
    simp only [Plain.execute, plain_register, Option.bind_eq_bind, Option.bind_some,
      plain_setRegister, ofInt_toNat, BitVec.setWidth_eq]
    rfl
  | or x y | and x y | xor x y =>
    simp only [Plain.execute, plain_register, Option.bind_eq_bind, Option.bind_some,
      plain_yieldLogic, ofInt_lor_toNat, ofInt_land_toNat, ofInt_xor_toNat]
    rfl
  | add x y =>
    simp only [Plain.execute, plain_register, Option.bind_eq_bind, Option.bind_some,
      plain_yieldFlagged, ofInt_add_toNat, decide_lt_toNat_add]
    rfl
  | sub x y | subFrom x y =>
    simp only [Plain.execute, plain_register, Option.bind_eq_bind, Option.bind_some,
      plain_yieldFlagged, ofInt_sub_toNat, decide_toNat_le]
    rfl
  | shiftRight x y =>
    simp only [Plain.execute, plain_shiftSource, Option.bind_eq_bind, Option.bind_some,
      plain_yieldFlagged, ofInt_half]
    rfl
  | shiftLeft x y =>
    simp only [Plain.execute, plain_shiftSource, Option.bind_eq_bind, Option.bind_some,
      plain_yieldFlagged, ofInt_double, testBit_seven]
    rfl
  | loadIndex a =>
    simp only [Plain.execute, plain_modifyIndex, setIndex, ofInt_toNat, BitVec.setWidth_eq]
    rfl
  | addIndex x =>
    simp only [Plain.execute, plain_register, Option.bind_eq_bind, Option.bind_some,
      plain_modifyIndex, setIndex, BitVec.ofInt_add, ofInt_toNat, BitVec.setWidth_eq]
    rfl
  | loadGlyph x =>
    simp only [Plain.execute, plain_register, Option.bind_eq_bind, Option.bind_some,
      plain_modifyIndex, setIndex, BitVec.ofInt_mul, ofInt_toNat]
    rfl
  | draw x y n =>
    simp only [Plain.execute, plain_register, Option.bind_eq_bind, Option.bind_some, plain_index,
      plain_readBytes, plain_drawSprite, plain_setFlag, map_ofInt_toNat]
    rfl
  | readDelay x =>
    simp only [Plain.execute, plain_delay, plain_setRegister, ofInt_toNat, BitVec.setWidth_eq]
    rfl
  | setDelay x | setSound x =>
    simp only [Plain.execute, plain_register, Option.bind_eq_bind, Option.bind_some, plain_setDelay,
      plain_setSound, setDelay, setSound, Timers.setDelay, Timers.setSound, ofInt_toNat, BitVec.setWidth_eq]
    rfl
  | awaitKey x =>
    cases press with
    | none =>
      simp only [Plain.execute, plain_setPc, setPc, ofInt_toNat, BitVec.setWidth_eq]
      rfl
    | some k =>
      simp only [Plain.execute, plain_setRegister, ofInt_toNat]
      rfl
  | storeDecimal x => exact m.plain_storeDecimal x address press
  | storeRegisters x =>
    have h := m.plain_storeBlock (k := 0) (n := x.toNat + 1) (by omega)
    rw [List.drop_zero, Int.natCast_zero, Int.add_zero] at h
    simp only [Plain.execute, List.range_eq_range', h, Option.bind_eq_bind, Option.bind_some, plain_passBlock]
    rfl
  | loadRegisters x =>
    have h := m.plain_loadBlock (k := 0) (n := x.toNat + 1) (by omega)
    simp only [Plain.execute, List.range_eq_range', h, Option.bind_eq_bind, Option.bind_some, plain_passBlock,
      loaded_eq]
    rfl

end Machine
end Chip8
