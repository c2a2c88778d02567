/-
What one step can do. An instruction is held up in three ways only
(`obstacle?`), and `StepsTo` names the four ends of a step with the machine
each leaves. Everything about runs comes from these two.
-/
import Chip8.Machine.Step

namespace Chip8

/-! ## Single operations -/

theorem CallStack.push?_eq_none_iff {s : CallStack} {a : Word} : s.push? a = none ↔ s.depth = 16 := by
  have := s.depth_le
  unfold push?
  split <;> simp <;> omega

theorem CallStack.pop?_eq_none_iff {s : CallStack} : s.pop? = none ↔ s.depth = 0 := by
  unfold pop?
  split <;> simp <;> omega

theorem Key.ofValue?_of_le {n : Nat} (h : n ≤ 15) : Key.ofValue? n = some (BitVec.ofNat 4 n) := by
  unfold ofValue?
  rw [if_pos (by omega), BitVec.ofInt_natCast]

theorem Key.ofValue?_of_lt {n : Nat} (h : 15 < n) : Key.ofValue? n = none := by
  unfold ofValue?
  rw [if_neg (by omega)]

namespace Machine

theorem selected_of_le {m : Machine} {x : Register} (h : (m.register x).toNat ≤ 15) :
    m.selected x = .ok (m.keypad.isHeld (BitVec.ofNat 4 (m.register x).toNat)) := by
  simp only [selected, Key.ofValue?_of_le h]

theorem selected_of_lt {m : Machine} {x : Register} (h : 15 < (m.register x).toNat) :
    m.selected x = .error (.noSuchKey (m.register x).toNat) := by
  simp only [selected, Key.ofValue?_of_lt h]

/-- A bitwise operation's result is its register and, in some dialects, the flag. -/
theorem yieldLogic_eq (m : Machine) (x : Register) (b : Byte) : m.yieldLogic x b = { m with
    registers := if m.dialect.logicClearsFlag then (m.registers.write x b).writeFlag false
      else m.registers.write x b } := by
  unfold yieldLogic
  split <;> rfl

theorem skipIf_eq (m : Machine) (c : Bool) :
    m.skipIf c = { m with pc := if c then m.pc + 2 else m.pc } := by
  unfold skipIf
  split <;> rfl

theorem passBlock_eq (m : Machine) (x : Register) : m.passBlock x = { m with
    index := if m.dialect.blocksMoveIndex then m.index + BitVec.ofNat 12 (x.toNat + 1)
      else m.index } := by
  unfold passBlock
  split <;> rfl

/-! ## Obstacles -/

/-- What keeps an instruction from being carried out, if anything does. -/
def obstacle? (m : Machine) : Instruction → Option Fault.Cause
  | .call _ => if m.stack.depth = 16 then some .stackOverflow else none
  | .ret => if m.stack.depth = 0 then some .stackUnderflow else none
  | .skipDown x | .skipUp x =>
    if 15 < (m.register x).toNat then some (.noSuchKey (m.register x).toNat) else none
  | _ => none

theorem execute_of_obstacle {m : Machine} {i : Instruction} {c : Fault.Cause} (address : Word)
    (press : Option Key) (h : m.obstacle? i = some c) : m.execute i address press = .error c := by
  cases i with
  | call a =>
    simp only [obstacle?, Option.ite_none_right_eq_some, Option.some.injEq] at h
    simp [execute, CallStack.push?_eq_none_iff.2 h.1, h.2]
  | ret =>
    simp only [obstacle?, Option.ite_none_right_eq_some, Option.some.injEq] at h
    simp [execute, CallStack.pop?_eq_none_iff.2 h.1, h.2]
  | skipDown x | skipUp x =>
    simp only [obstacle?, Option.ite_none_right_eq_some, Option.some.injEq] at h
    simp [execute, selected_of_lt h.1, h.2, Except.map]
  | _ => cases h

theorem execute_of_none {m : Machine} {i : Instruction} (address : Word) (press : Option Key)
    (h : m.obstacle? i = none) : ∃ m', m.execute i address press = .ok m' := by
  cases i with
  | call a =>
    have hd : ¬ m.stack.depth = 16 := by simpa [obstacle?] using h
    obtain ⟨s, hs⟩ : ∃ s, m.stack.push? m.pc = some s :=
      Option.ne_none_iff_exists'.1 (mt CallStack.push?_eq_none_iff.1 hd)
    simp [execute, hs]
  | ret =>
    have hd : ¬ m.stack.depth = 0 := by simpa [obstacle?] using h
    obtain ⟨s, hs⟩ : ∃ s, m.stack.pop? = some s :=
      Option.ne_none_iff_exists'.1 (mt CallStack.pop?_eq_none_iff.1 hd)
    simp [execute, hs]
  | skipDown x | skipUp x =>
    have hx : (m.register x).toNat ≤ 15 := by simpa [obstacle?] using h
    simp [execute, selected_of_le hx, Except.map]
  | awaitKey x => cases press <;> exact ⟨_, rfl⟩
  | _ => exact ⟨_, rfl⟩

/-- Only the stack's depth and the registers can hold an instruction up. -/
theorem obstacle?_congr {m n : Machine} (hs : m.stack.depth = n.stack.depth)
    (hr : m.registers = n.registers) (i : Instruction) : m.obstacle? i = n.obstacle? i := by
  have hreg : ∀ x, m.register x = n.register x := fun x => by simp only [register, hr]
  cases i <;> simp [obstacle?, hs, hreg]

/-! ## The ends of a step -/

/-- The four ends of a step: there is no such key, no such instruction, the
instruction is held up, or it is carried out. -/
inductive StepsTo (m : Machine) (press : Option Key.Reference) :
    Except Failure Executed × Machine → Prop
  | unresolved {e} (hp : resolvePress press = .error e) :
    StepsTo m press (.error (.unresolvedKey e), m)
  | undecodable {key} (hp : resolvePress press = .ok key)
    (hw : Instruction.ofWord? m.fetch = none) :
    StepsTo m press (.error (m.faultHere (Instruction.undecodable m.fetch)), m.tick)
  | heldUp {key i c} (hp : resolvePress press = .ok key)
    (hw : Instruction.ofWord? m.fetch = some i) (ho : m.obstacle? i = some c) :
    StepsTo m press (.error (m.faultHere c), m.tick.advance)
  | done {key i m'} (hp : resolvePress press = .ok key)
    (hw : Instruction.ofWord? m.fetch = some i) (ho : m.obstacle? i = none)
    (hx : m.tick.advance.execute i m.pc key = .ok m') :
    StepsTo m press (.ok ⟨m.pc, i⟩, m')

theorem stepsTo (m : Machine) (press : Option Key.Reference) : m.StepsTo press (m.step press) := by
  have hfetch : m.tick.fetch = m.fetch := rfl
  have hpc : m.tick.pc = m.pc := rfl
  cases hp : resolvePress press with
  | error e =>
    have h : m.step press = (.error (.unresolvedKey e), m) := by simp [step, hp]
    exact h ▸ .unresolved hp
  | ok key =>
    cases hw : Instruction.ofWord? m.fetch with
    | none =>
      have h : m.step press = (.error (m.faultHere (Instruction.undecodable m.fetch)), m.tick) := by
        simp only [step, hp, perform, hfetch, Instruction.decode, hw]
        rfl
      exact h ▸ .undecodable hp hw
    | some i =>
      have hobs : m.tick.advance.obstacle? i = m.obstacle? i := obstacle?_congr rfl rfl i
      cases ho : m.obstacle? i with
      | some c =>
        have hx := execute_of_obstacle m.pc key (hobs.trans ho)
        have h : m.step press = (.error (m.faultHere c), m.tick.advance) := by
          simp only [step, hp, perform, hfetch, Instruction.decode, hw, hpc, hx]
          rfl
        exact h ▸ .heldUp hp hw ho
      | none =>
        obtain ⟨m', hx⟩ := execute_of_none m.pc key (hobs.trans ho)
        have h : m.step press = (.ok ⟨m.pc, i⟩, m') := by
          simp only [step, hp, perform, hfetch, Instruction.decode, hw, hpc, hx]
        exact h ▸ .done hp hw ho hx

/-- No machine has two ends of a step. -/
theorem StepsTo.eq {m : Machine} {press : Option Key.Reference}
    {r : Except Failure Executed × Machine} (h : m.StepsTo press r) : m.step press = r := by
  have hs := m.stepsTo press
  generalize m.step press = s at hs
  cases h <;> cases hs <;> simp_all

/-- Another machine takes the same step as `m`, and is changed into what becomes
of `m`, if the change passes through the instruction that `m` carries out. -/
theorem step_change {m : Machine} {press : Option Key.Reference} (change : Machine → Machine)
    (hexecute : ∀ key i m', (m.step press).1 = .ok ⟨m.pc, i⟩ →
      m.tick.advance.execute i m.pc key = .ok m' →
      (change m).tick.advance.execute i m.pc key = .ok (change m'))
    (hpc : (change m).pc = m.pc := by rfl) (hfetch : (change m).fetch = m.fetch := by rfl)
    (hdepth : (change m).stack.depth = m.stack.depth := by rfl)
    (hregisters : (change m).registers = m.registers := by rfl)
    (htick : (change m).tick = change m.tick := by rfl)
    (hadvance : (change m).tick.advance = change m.tick.advance := by rfl) :
    (change m).step press = ((m.step press).1, change (m.step press).2) := by
  apply StepsTo.eq
  have hs := m.stepsTo press
  generalize m.step press = r at hexecute hs
  have hfault : ∀ c, m.faultHere c = (change m).faultHere c := by
    intro c
    rw [faultHere, faultHere, hpc]
  cases hs with
  | unresolved hp => exact .unresolved hp
  | undecodable hp hw =>
    rw [hfault, ← htick, ← hfetch]
    exact .undecodable hp (hfetch ▸ hw)
  | heldUp hp hw ho =>
    rw [hfault, ← hadvance]
    exact .heldUp hp (hfetch ▸ hw) ((obstacle?_congr hdepth hregisters _).trans ho)
  | @done key i m' hp hw ho hx =>
    have hx' := hexecute key i m' rfl hx
    rw [← hpc] at hx' ⊢
    exact .done hp (hfetch ▸ hw) ((obstacle?_congr hdepth hregisters _).trans ho) hx'

theorem address_of_ok {m : Machine} {press : Option Key.Reference} {d : Executed}
    (hd : (m.step press).1 = .ok d) : d.address = m.pc := by
  have h := m.stepsTo press
  generalize m.step press = r at h hd
  cases h with
  | unresolved | undecodable | heldUp => cases hd
  | done => cases hd; rfl

end Machine
end Chip8
