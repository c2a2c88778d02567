/-
Where a step leaves the program counter. It has moved behind the instruction
before the instruction is carried out; jumps, calls and returns set it, skips
move it once more, and a wait without a key sets it back. All in numbers: the
counter goes round at 65536, also in the middle of a skip, and a target has
twelve bits unless a register is added to it.
-/
import Chip8.Proofs.Failure
import Chip8.Proofs.Memory
import Chip8.Proofs.Subroutine

namespace Chip8

/-- Whether an instruction is a skip. -/
def Instruction.isSkip : Instruction → Bool
  | skipEqByte .. | skipNeByte .. | skipEq .. | skipNe .. | skipDown _ | skipUp _ => true
  | _ => false

namespace Machine

variable {m m' : Machine} {i j : Instruction} {press : Option Key.Reference}

/-! ## Skips -/

/-- Whether an instruction skips the next one. -/
def skips (m : Machine) : Instruction → Bool
  | .skipEqByte x b => (m.register x).toNat = b.toNat
  | .skipNeByte x b => (m.register x).toNat ≠ b.toNat
  | .skipEq x y => (m.register x).toNat = (m.register y).toNat
  | .skipNe x y => (m.register x).toNat ≠ (m.register y).toNat
  | .skipDown x => m.keypad.heldKeys.any fun k => k.toNat = (m.register x).toNat
  | .skipUp x => !m.keypad.heldKeys.any fun k => k.toNat = (m.register x).toNat
  | _ => false

theorem skips_withMemory (m : Machine) (M : Memory) (i : Instruction) :
    { m with memory := M }.skips i = m.skips i := by
  cases i <;> rfl

/-- A key is held down exactly if it is among the keys that are. -/
theorem any_heldKeys (p : Keypad) {n : Nat} (h : n ≤ 15) :
    (p.heldKeys.any fun k => k.toNat = n) = p.isHeld (BitVec.ofNat 4 n) := by
  have htoNat : (BitVec.ofNat 4 n).toNat = n := by
    rw [BitVec.toNat_ofNat]
    omega
  rw [Bool.eq_iff_iff, List.any_eq_true]
  simp only [Keypad.mem_heldKeys, decide_eq_true_eq]
  constructor
  · rintro ⟨k, hk, heq⟩
    rwa [← heq, BitVec.ofNat_toNat, BitVec.setWidth_eq]
  · intro hk
    exact ⟨_, hk, htoNat⟩

theorem eq_of_selected {x : Register} {f : Bool → Machine} (h : (m.selected x).map f = .ok m') :
    m' = f (m.skips (.skipDown x)) := by
  rcases Nat.lt_or_ge 15 (m.register x).toNat with hx | hx
  · rw [selected_of_lt hx] at h
    cases h
  · rw [selected_of_le hx] at h
    cases h
    rw [skips, any_heldKeys _ hx]

/-! ## Destinations -/

/-- Where an instruction at the program counter leaves it, with a key pressed or
not; a return goes to the newest return address, if there is one. -/
def destination? (m : Machine) (pressed : Bool) : Instruction → Option Nat
  | .jump a | .call a => some a.toNat
  | .ret => m.stack.live.getLast?.map BitVec.toNat
  | .jumpOffset a => some ((m.register 0).toNat + a.toNat)
  | .awaitKey _ => some (if pressed then (m.pc.toNat + 2) % 65536 else m.pc.toNat)
  | i => some ((m.pc.toNat + if m.skips i then 4 else 2) % 65536)

theorem destination?_ret (m : Machine) (pressed : Bool) :
    m.destination? pressed .ret = m.stack.live.getLast?.map BitVec.toNat := rfl

theorem destination?_of_isSkip (h : i.isSkip = true) (pressed : Bool) :
    m.destination? pressed i = some ((m.pc.toNat + if m.skips i then 4 else 2) % 65536) := by
  cases i <;> first | rfl | cases h

theorem toNat_target (a : Address) : (a.setWidth 16).toNat = a.toNat := by
  rw [BitVec.toNat_setWidth, Nat.mod_eq_of_lt (Nat.lt_trans a.isLt (by decide))]

/-- A register and a target do not come round. -/
theorem toNat_offset (b : Byte) (a : Address) :
    (b.setWidth 16 + a.setWidth 16).toNat = b.toNat + a.toNat := by
  have hb : b.toNat < 2 ^ 8 := b.isLt
  have ha : a.toNat < 2 ^ 12 := a.isLt
  rw [BitVec.toNat_add, BitVec.toNat_setWidth, BitVec.toNat_setWidth]
  omega

@[simp] theorem register_advance (m : Machine) (x : Register) :
    m.advance.register x = m.register x := rfl

theorem toNat_pc_advance (m : Machine) : m.advance.pc.toNat = (m.pc.toNat + 2) % 65536 :=
  BitVec.toNat_add ..

/-- A skip moves a counter that has moved already. -/
theorem toNat_pc_skipIf (m : Machine) (c : Bool) :
    (m.advance.skipIf c).pc.toNat = (m.pc.toNat + if c then 4 else 2) % 65536 := by
  cases c
  · exact toNat_pc_advance m
  · have hadd : m.pc + 2 + 2 = m.pc + 4 := BitVec.add_assoc ..
    calc (m.pc + 2 + 2).toNat = (m.pc + 4).toNat := congrArg BitVec.toNat hadd
      _ = (m.pc.toNat + 4) % 65536 := BitVec.toNat_add ..

/-- An instruction that is carried out leaves the counter at its destination. -/
theorem destination?_of_execute {key : Option Key} (h : m.advance.execute i m.pc key = .ok m') :
    m.destination? key.isSome i = some m'.pc.toNat := by
  cases i with
  | jump a =>
    cases h
    exact congrArg some (toNat_target a).symm
  | call a =>
    simp only [execute] at h
    split at h
    next =>
      cases h
      exact congrArg some (toNat_target a).symm
    next => cases h
  | jumpOffset a =>
    cases h
    exact congrArg some (toNat_offset ..).symm
  | ret =>
    have hpop : m.stack.pop? = some (m'.pc, m'.stack) := execute_stack h
    rw [destination?_ret, CallStack.live_of_pop? hpop, List.getLast?_concat, Option.map_some]
  | awaitKey x =>
    cases key with
    | none => cases h; rfl
    | some k =>
      cases h
      exact congrArg some (toNat_pc_advance m).symm
  | skipEqByte x b | skipNeByte x b | skipEq x y | skipNe x y =>
    cases h
    rw [destination?_of_isSkip rfl]
    simp [skips, toNat_pc_skipIf, ← BitVec.toNat_inj]
  | skipDown x | skipUp x =>
    rw [eq_of_selected h]
    exact congrArg some (toNat_pc_skipIf m _).symm
  | _ =>
    -- the others leave it where it has moved to
    simp only [execute, yieldLogic_eq, passBlock_eq] at h
    cases h
    exact congrArg some (toNat_pc_advance m).symm

theorem isSome_of_resolvePress {key : Option Key} (h : resolvePress press = .ok key) :
    key.isSome = press.isSome := by
  cases press with
  | none => cases h; rfl
  | some ref =>
    rw [resolvePress] at h
    cases hr : Key.resolve ref <;> rw [hr] at h <;> cases h
    rfl

/-- Every step that succeeds leaves the counter at its instruction's destination. -/
theorem destination?_of_ok {d : Executed} (h : (m.step press).1 = .ok d) :
    m.destination? press.isSome d.instruction = some (m.step press).2.pc.toNat := by
  have hs := m.stepsTo press
  generalize m.step press = r at h hs
  cases hs with
  | unresolved | undecodable | heldUp => cases h
  | done hp hw ho hx =>
    cases h
    rw [← isSome_of_resolvePress hp]
    exact destination?_of_execute (m := m.tick) hx

/-! ## Skips in pairs -/

/-- An instruction at the program counter is carried out unless it is held up. -/
theorem exists_step_of_fetch (hp : NamesKey press) (hfetch : m.fetch = i.encode)
    (ho : m.obstacle? i = none) : ∃ m', m.step press = (.ok ⟨m.pc, i⟩, m') ∧
      m.destination? press.isSome i = some m'.pc.toNat := by
  have hword : Instruction.ofWord? m.fetch = some i := by rw [hfetch, Instruction.ofWord?_encode]
  have hok : (m.step press).1 = .ok ⟨m.pc, i⟩ := step_eq_ok_iff.2 ⟨hp, rfl, hword, ho⟩
  exact ⟨_, Prod.ext hok rfl, destination?_of_ok hok⟩

/-- Of two instructions, each put at the program counter of the same machine, one
skips and the other one does not. -/
def ExactlyOneSkips (m : Machine) (i j : Instruction) : Prop :=
  ∀ (M N : Memory) (p q : Option Key.Reference), NamesKey p → NamesKey q →
    { m with memory := M }.fetch = i.encode → { m with memory := N }.fetch = j.encode →
    ∃ m₁ m₂, { m with memory := M }.step p = (.ok ⟨m.pc, i⟩, m₁) ∧
      { m with memory := N }.step q = (.ok ⟨m.pc, j⟩, m₂) ∧
      ((m₁.pc.toNat = (m.pc.toNat + 4) % 65536 ∧ m₂.pc.toNat = (m.pc.toNat + 2) % 65536) ∨
        (m₁.pc.toNat = (m.pc.toNat + 2) % 65536 ∧ m₂.pc.toNat = (m.pc.toNat + 4) % 65536))

theorem exactlyOneSkips (hi : i.isSkip = true) (hj : j.isSkip = true)
    (hoi : m.obstacle? i = none) (hoj : m.obstacle? j = none) (h : m.skips j = !m.skips i) :
    m.ExactlyOneSkips i j := by
  intro M N p q hp hq hM hN
  have hoM : { m with memory := M }.obstacle? i = none := (obstacle?_congr rfl rfl i).trans hoi
  have hoN : { m with memory := N }.obstacle? j = none := (obstacle?_congr rfl rfl j).trans hoj
  obtain ⟨m₁, hm₁, hd₁⟩ := exists_step_of_fetch hp hM hoM
  obtain ⟨m₂, hm₂, hd₂⟩ := exists_step_of_fetch hq hN hoN
  rw [destination?_of_isSkip hi, Option.some.injEq] at hd₁
  rw [destination?_of_isSkip hj, Option.some.injEq] at hd₂
  have hskips₁ : { m with memory := M }.skips i = m.skips i := skips_withMemory ..
  have hskips₂ : { m with memory := N }.skips j = !m.skips i := (skips_withMemory ..).trans h
  rw [hskips₁] at hd₁
  rw [hskips₂] at hd₂
  refine ⟨m₁, m₂, hm₁, hm₂, ?_⟩
  cases hs : m.skips i <;> rw [hs] at hd₁ hd₂
  · exact .inr ⟨hd₁.symm, hd₂.symm⟩
  · exact .inl ⟨hd₁.symm, hd₂.symm⟩

/-- A skip on a key that there is not is held up. -/
theorem step_noSuchKey {x : Register} (hi : i = .skipDown x ∨ i = .skipUp x)
    (hx : 15 < (m.register x).toNat) (hp : NamesKey press) (hfetch : m.fetch = i.encode) :
    (m.step press).1 =
      .error (.fault ⟨.noSuchKey (m.register x).toNat, some (m.pc.toNat : Int)⟩) := by
  have hword : Instruction.ofWord? m.fetch = some i := by rw [hfetch, Instruction.ofWord?_encode]
  have hobstacle : m.obstacle? i = some (.noSuchKey (m.register x).toNat) :=
    obstacle?_eq_some_iff.2 (.inr (.inr ⟨x, hi, hx, rfl⟩))
  exact step_eq_fault_iff.2 ⟨hp, rfl, .inr ⟨i, hword, hobstacle⟩⟩

/-- Every instruction can be put at the program counter. -/
theorem exists_fetch (m : Machine) (i : Instruction) :
    ∃ M : Memory, { m with memory := M }.fetch = i.encode := by
  refine ⟨m.memory.writeBytes m.pc.toNat [i.encode.extractLsb' 8 8, i.encode.extractLsb' 0 8], ?_⟩
  exact (Memory.readWord_writeBytes ..).trans i.encode.ofBytes_extract

/-- **The program counter after a step.** Every step that succeeds leaves it at
the destination of the instruction whose word it stood at: a target or a return
address, behind the instruction, behind the next one too if a skip's condition
holds, or where it was. Of two skips on opposite conditions exactly one skips,
whatever the machine's state; on a key that there is not, both fail. Every
instruction can stand at the program counter of every machine. -/
theorem pc_afterStep (m : Machine) :
    (∀ press d, (m.step press).1 = .ok d →
      d.instruction.encode = m.fetch ∧
      m.destination? press.isSome d.instruction = some (m.step press).2.pc.toNat) ∧
    (∀ x b, m.ExactlyOneSkips (.skipEqByte x b) (.skipNeByte x b)) ∧
    (∀ x y, m.ExactlyOneSkips (.skipEq x y) (.skipNe x y)) ∧
    (∀ x, (m.register x).toNat ≤ 15 → m.ExactlyOneSkips (.skipDown x) (.skipUp x)) ∧
    (∀ x, 15 < (m.register x).toNat → ∀ i : Instruction, i = .skipDown x ∨ i = .skipUp x →
      ∀ (M : Memory) (press), NamesKey press → { m with memory := M }.fetch = i.encode →
        ({ m with memory := M }.step press).1 =
          .error (.fault ⟨.noSuchKey (m.register x).toNat, some (m.pc.toNat : Int)⟩)) ∧
    ∀ i : Instruction, ∃ M : Memory, { m with memory := M }.fetch = i.encode := by
  refine ⟨fun press d h => ?_, fun x b => ?_, fun x y => ?_, fun x hx => ?_, ?_, m.exists_fetch⟩
  · have hword := (step_eq_ok_iff.1 h).2.2.1
    exact ⟨Instruction.encode_of_ofWord? hword, destination?_of_ok h⟩
  · exact exactlyOneSkips rfl rfl rfl rfl (by simp [skips])
  · exact exactlyOneSkips rfl rfl rfl rfl (by simp [skips])
  · have hfree : ¬ 15 < (m.register x).toNat := by omega
    exact exactlyOneSkips rfl rfl (if_neg hfree) (if_neg hfree) rfl
  · intro x hx i hi M press hp hfetch
    exact step_noSuchKey (m := { m with memory := M }) hi hx hp hfetch

end Machine
end Chip8
