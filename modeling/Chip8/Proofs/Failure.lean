/-
The failures of a step: which words, stacks, registers and key references
bring each of them about, and how much of the step has been done by then.

A step that is given no key has changed nothing; a word that is no instruction
leaves the tick of the timers; an instruction that is held up leaves the tick
and the program counter behind it. No failing step draws a random byte or adds
to a run's trace.
-/
import Chip8.Proofs.Decoding
import Chip8.Proofs.Step

namespace Chip8

/-! ## Causes -/

/-- What is wrong with a word, in numbers. -/
theorem Instruction.undecodable_eq (w : Word) : undecodable w =
    if w.toNat / 4096 = 8 then .unknownOperation 8 ((w.toNat % 16 : Nat) : Int) w.toNat
    else .unknownOpcode w.toNat := by
  have hw := w.isLt
  have hfamily : w.nibbles.1.toNat = w.toNat / 4096 := by
    have h : w.nibbles.1.toNat = w.toNat >>> 12 % 16 := BitVec.extractLsb'_toNat ..
    rw [h, Nat.shiftRight_eq_div_pow]
    omega
  have hlast : w.nibbles.2.2.2.toNat = w.toNat % 16 := by
    have h : w.nibbles.2.2.2.toNat = w.toNat >>> 0 % 16 := BitVec.extractLsb'_toNat ..
    rw [h, Nat.shiftRight_zero]
  have hiff : w.nibbles.1 = 0x8 ↔ w.toNat / 4096 = 8 := by
    rw [← hfamily, ← BitVec.toNat_inj]
    rfl
  have hu : undecodable w = if w.nibbles.1 = 0x8
      then .unknownOperation w.nibbles.1.toNat w.nibbles.2.2.2.toNat w.toNat
      else .unknownOpcode w.toNat := rfl
  rw [hu]
  by_cases h : w.toNat / 4096 = 8
  · rw [if_pos h, if_pos (hiff.2 h), hlast, hfamily, h]
    rfl
  · rw [if_neg h, if_neg (mt hiff.1 h)]

theorem Instruction.decoding_mem_lineage_undecodable (w : Word) :
    Fault.Kind.decoding ∈ (undecodable w).kind.lineage := by
  rw [undecodable_eq]
  split <;> simp [Fault.Cause.kind, Fault.Kind.lineage]

namespace Machine

variable {m : Machine} {press : Option Key.Reference}

theorem obstacle?_eq_some_iff {i : Instruction} {c : Fault.Cause} : m.obstacle? i = some c ↔
    (c = .stackOverflow ∧ (∃ a, i = .call a) ∧ m.stack.depth = 16) ∨
    (c = .stackUnderflow ∧ i = .ret ∧ m.stack.depth = 0) ∨
    ∃ x, (i = .skipDown x ∨ i = .skipUp x) ∧ 15 < (m.register x).toNat ∧
      c = .noSuchKey (m.register x).toNat := by
  cases i <;> simp [obstacle?, eq_comm, and_comm]

theorem machine_mem_lineage_obstacle {i : Instruction} {c : Fault.Cause} (h : m.obstacle? i = some c) :
    Fault.Kind.machine ∈ c.kind.lineage ∧ Fault.Kind.decoding ∉ c.kind.lineage := by
  rcases obstacle?_eq_some_iff.1 h with ⟨rfl, -⟩ | ⟨rfl, -⟩ | ⟨x, -, -, rfl⟩ <;>
    simp [Fault.Cause.kind, Fault.Kind.lineage]

/-- No key is given, or a reference that names one. -/
def NamesKey (press : Option Key.Reference) : Prop :=
  ∀ ref, press = some ref → ∃ k, Key.resolve ref = .ok k

theorem resolvePress_eq_error_iff {e : Key.Unresolved} :
    resolvePress press = .error e ↔ ∃ ref, press = some ref ∧ Key.resolve ref = .error e := by
  cases press with
  | none => simp [resolvePress]
  | some ref => cases h : Key.resolve ref <;> simp [resolvePress, h, Except.map]

theorem namesKey_iff : NamesKey press ↔ ∃ key, resolvePress press = .ok key := by
  cases press with
  | none => simp [NamesKey, resolvePress]
  | some ref => cases h : Key.resolve ref <;> simp [NamesKey, resolvePress, h, Except.map]

theorem namesKey_none : NamesKey none := nofun

theorem namesKey_some {ref : Key.Reference} {k : Key} (h : Key.resolve ref = .ok k) :
    NamesKey (some ref) := by
  rintro _ ⟨⟩
  exact ⟨k, h⟩

/-! ## Which failure, and what it leaves -/

theorem step_eq_unresolved_iff {e : Key.Unresolved} :
    (m.step press).1 = .error (.unresolvedKey e) ↔ resolvePress press = .error e := by
  have h := m.stepsTo press
  generalize m.step press = r at h
  cases h with
  | unresolved hp => simp [hp, eq_comm]
  | undecodable hp hw | heldUp hp hw ho => simp [hp, faultHere]
  | done hp hw ho hx => simp [hp]

/-- A fault is a word that is no instruction, or an instruction held up. -/
theorem step_eq_fault_iff {f : Fault} : (m.step press).1 = .error (.fault f) ↔
    NamesKey press ∧ f.address = some (m.pc.toNat : Int) ∧
      ((Instruction.ofWord? m.fetch = none ∧ f.cause = Instruction.undecodable m.fetch) ∨
        ∃ i, Instruction.ofWord? m.fetch = some i ∧ m.obstacle? i = some f.cause) := by
  obtain ⟨cause, address⟩ := f
  rw [namesKey_iff]
  have h := m.stepsTo press
  generalize m.step press = r at h
  cases h with
  | unresolved hp => simp [hp]
  | undecodable hp hw => simp [hp, hw, faultHere, eq_comm, and_comm]
  | heldUp hp hw ho => simp [hp, hw, ho, faultHere, eq_comm, and_comm]
  | done hp hw ho hx => simp [hp, hw, ho]

/-- A fault that is no decoding fault is an instruction held up. -/
theorem step_eq_heldUp_iff {f : Fault} (hf : Fault.Kind.decoding ∉ f.kind.lineage) :
    (m.step press).1 = .error (.fault f) ↔ NamesKey press ∧ f.address = some (m.pc.toNat : Int) ∧
      ∃ i, Instruction.ofWord? m.fetch = some i ∧ m.obstacle? i = some f.cause := by
  rw [step_eq_fault_iff]
  constructor
  · rintro ⟨hp, ha, ⟨-, hc⟩ | h⟩
    · have := Instruction.decoding_mem_lineage_undecodable m.fetch
      rw [← hc] at this
      exact absurd this hf
    · exact ⟨hp, ha, h⟩
  · rintro ⟨hp, ha, h⟩
    exact ⟨hp, ha, .inr h⟩

theorem step_ok_iff : (∃ d, (m.step press).1 = .ok d) ↔
    NamesKey press ∧ ∃ i, Instruction.ofWord? m.fetch = some i ∧ m.obstacle? i = none := by
  rw [namesKey_iff]
  have h := m.stepsTo press
  generalize m.step press = r at h
  cases h with
  | unresolved hp => simp [hp]
  | undecodable hp hw => simp [hp, hw]
  | heldUp hp hw ho => simp [hp, hw, ho]
  | done hp hw ho hx => simp [hp, hw, ho]

theorem step_eq_ok_iff {d : Executed} : (m.step press).1 = .ok d ↔ NamesKey press ∧
    d.address = m.pc ∧ Instruction.ofWord? m.fetch = some d.instruction ∧
      m.obstacle? d.instruction = none := by
  obtain ⟨address, i⟩ := d
  rw [namesKey_iff]
  have h := m.stepsTo press
  generalize m.step press = r at h
  cases h with
  | unresolved hp => simp [hp]
  | undecodable hp hw => simp [hp, hw]
  | heldUp hp hw ho =>
    simp only [hw, Option.some.injEq, reduceCtorEq, false_iff]
    rintro ⟨-, -, rfl, hnone⟩
    simp [ho] at hnone
  | done hp hw ho hx =>
    simp only [hp, hw, Except.ok.injEq, Executed.mk.injEq, Option.some.injEq]
    constructor
    · rintro ⟨rfl, rfl⟩
      exact ⟨⟨_, rfl⟩, rfl, rfl, ho⟩
    · rintro ⟨-, rfl, rfl, -⟩
      exact ⟨rfl, rfl⟩

/-- The machine that a failing step leaves. -/
theorem step_snd_of_error {failure : Failure} (h : (m.step press).1 = .error failure) :
    (∃ e, failure = .unresolvedKey e ∧ (m.step press).2 = m) ∨
    (∃ f, failure = .fault f ∧ Instruction.ofWord? m.fetch = none ∧ (m.step press).2 = m.tick) ∨
    (∃ f i, failure = .fault f ∧ Instruction.ofWord? m.fetch = some i ∧
      m.obstacle? i = some f.cause ∧ (m.step press).2 = m.tick.advance) := by
  have hs := m.stepsTo press
  generalize m.step press = r at h hs
  cases hs with
  | unresolved hp => cases h; exact .inl ⟨_, rfl, rfl⟩
  | undecodable hp hw => cases h; exact .inr (.inl ⟨_, rfl, hw, rfl⟩)
  | heldUp hp hw ho => cases h; exact .inr (.inr ⟨_, _, rfl, hw, ho, rfl⟩)
  | done => cases h

/-- A step that fails leaves the screen alone, and halts nothing. -/
theorem shown_of_error {e : Failure} (h : (m.step press).1 = .error e) :
    (m.step press).2.screen = m.screen ∧ (m.step press).2.halted = m.halted := by
  rcases step_snd_of_error h with ⟨_, -, hm⟩ | ⟨_, -, -, hm⟩ | ⟨_, _, -, -, -, hm⟩ <;> rw [hm] <;>
    exact ⟨rfl, rfl⟩

/-- A failure that a step at an address may have: a key that its user named
wrongly, or one of the five faults of instructions. -/
def Failure.IsOfStep (press : Option Key.Reference) (address : Int) : Failure → Prop
  | .unresolvedKey e => ∃ ref, press = some ref ∧ Key.resolve ref = .error e
  | .fault f => f.address = some address ∧
    f.kind ∈ [.unknownOpcode, .unknownOperation, .stackOverflow, .stackUnderflow, .noSuchKey]

theorem isOfStep {failure : Failure} (h : (m.step press).1 = .error failure) :
    failure.IsOfStep press m.pc.toNat := by
  cases failure with
  | unresolvedKey e => exact resolvePress_eq_error_iff.1 (step_eq_unresolved_iff.1 h)
  | fault f =>
    obtain ⟨-, ha, ⟨-, hc⟩ | ⟨i, -, ho⟩⟩ := step_eq_fault_iff.1 h
    · refine ⟨ha, ?_⟩
      rw [Fault.kind, hc, Instruction.undecodable_eq]
      split <;> simp [Fault.Cause.kind]
    · refine ⟨ha, ?_⟩
      rcases obstacle?_eq_some_iff.1 ho with ⟨hc, -⟩ | ⟨hc, -⟩ | ⟨x, -, -, hc⟩ <;>
        simp [Fault.kind, hc, Fault.Cause.kind]

/-- When a step fails and how, and what each failure leaves. -/
structure FailsExactly (m : Machine) (press : Option Key.Reference) : Prop where
  /-- The word is read with the high byte first, at addresses modulo 4096. -/
  word : m.fetch.toNat =
    256 * (m.memory.read m.pc.toNat).toNat + (m.memory.read (m.pc.toNat + 1)).toNat
  unresolved : ∀ e, (m.step press).1 = .error (.unresolvedKey e) ↔
    ∃ ref, press = some ref ∧ Key.resolve ref = .error e
  decoding : (∃ f, .decoding ∈ f.kind.lineage ∧ (m.step press).1 = .error (.fault f)) ↔
    NamesKey press ∧ Instruction.ofWord? m.fetch = none
  overflow : (∃ f, f.kind = .stackOverflow ∧ (m.step press).1 = .error (.fault f)) ↔
    NamesKey press ∧ (∃ a, Instruction.ofWord? m.fetch = some (.call a)) ∧ m.stack.depth = 16
  underflow : (∃ f, f.kind = .stackUnderflow ∧ (m.step press).1 = .error (.fault f)) ↔
    NamesKey press ∧ Instruction.ofWord? m.fetch = some .ret ∧ m.stack.depth = 0
  noSuchKey : ∀ v : Int, (∃ f, f.cause = .noSuchKey v ∧ (m.step press).1 = .error (.fault f)) ↔
    NamesKey press ∧ ∃ x, (Instruction.ofWord? m.fetch = some (.skipDown x) ∨
      Instruction.ofWord? m.fetch = some (.skipUp x)) ∧ 15 < (m.register x).toNat ∧
      v = (m.register x).toNat
  /-- Every other step succeeds. -/
  success : (∃ d, (m.step press).1 = .ok d) ↔
    NamesKey press ∧ ∃ i, Instruction.ofWord? m.fetch = some i ∧
      ¬((∃ a, i = .call a) ∧ m.stack.depth = 16) ∧ ¬(i = .ret ∧ m.stack.depth = 0) ∧
      ¬∃ x, (i = .skipDown x ∨ i = .skipUp x) ∧ 15 < (m.register x).toNat
  /-- A fault is reported where the program counter stood. -/
  located : ∀ f, (m.step press).1 = .error (.fault f) → f.address = some (m.pc.toNat : Int)
  after_unresolved : ∀ e, (m.step press).1 = .error (.unresolvedKey e) → (m.step press).2 = m
  /-- The timers have ticked, and the fault shows the word. -/
  after_decoding : ∀ f, .decoding ∈ f.kind.lineage → (m.step press).1 = .error (.fault f) →
    (m.step press).2 = { m with
      timers := m.timers.tick m.clock.peek
      clock := m.clock.advance } ∧
    f.cause = if m.fetch.toNat / 4096 = 8
      then .unknownOperation 8 ((m.fetch.toNat % 16 : Nat) : Int) m.fetch.toNat
      else .unknownOpcode m.fetch.toNat
  /-- The timers have ticked, and the program counter is behind the instruction. -/
  after_machine : ∀ f, .machine ∈ f.kind.lineage → (m.step press).1 = .error (.fault f) →
    (m.step press).2 = { m with
      timers := m.timers.tick m.clock.peek
      clock := m.clock.advance
      pc := m.pc + 2 } ∧
    (m.step press).2.pc.toNat = (m.pc.toNat + 2) % 65536
  /-- No random byte is drawn, and nothing is added to a run's trace. -/
  quiet : ∀ failure, (m.step press).1 = .error failure → (m.step press).2.random = m.random ∧
    ∀ r : Run, r.machine = m → (r.advance press).trace = r.trace

/-- **The failures of a step**, from every state and for every key reference:
when each of them comes about, that there is no other, and what it leaves. -/
theorem step_failsExactly (m : Machine) (press : Option Key.Reference) :
    m.FailsExactly press where
  word := Word.toNat_ofBytes ..
  unresolved e := step_eq_unresolved_iff.trans resolvePress_eq_error_iff
  decoding := by
    simp only [step_eq_fault_iff]
    constructor
    · rintro ⟨f, hf, hp, -, ⟨hw, -⟩ | ⟨i, hw, ho⟩⟩
      · exact ⟨hp, hw⟩
      · exact absurd hf (machine_mem_lineage_obstacle ho).2
    · rintro ⟨hp, hw⟩
      exact ⟨⟨_, _⟩, Instruction.decoding_mem_lineage_undecodable m.fetch, hp, rfl, .inl ⟨hw, rfl⟩⟩
  overflow := by
    constructor
    · rintro ⟨f, hf, h⟩
      obtain ⟨hp, -, i, hw, ho⟩ := (step_eq_heldUp_iff (by simp [hf, Fault.Kind.lineage])).1 h
      rcases obstacle?_eq_some_iff.1 ho with ⟨-, ⟨a, rfl⟩, hd⟩ | ⟨hc, -⟩ | ⟨x, -, -, hc⟩
      · exact ⟨hp, ⟨a, hw⟩, hd⟩
      · simp [Fault.kind, hc, Fault.Cause.kind] at hf
      · simp [Fault.kind, hc, Fault.Cause.kind] at hf
    · rintro ⟨hp, ⟨a, hw⟩, hd⟩
      exact ⟨⟨.stackOverflow, _⟩, rfl,
        step_eq_fault_iff.2 ⟨hp, rfl, .inr ⟨_, hw, by simp [obstacle?, hd]⟩⟩⟩
  underflow := by
    constructor
    · rintro ⟨f, hf, h⟩
      obtain ⟨hp, -, i, hw, ho⟩ := (step_eq_heldUp_iff (by simp [hf, Fault.Kind.lineage])).1 h
      rcases obstacle?_eq_some_iff.1 ho with ⟨hc, -⟩ | ⟨-, rfl, hd⟩ | ⟨x, -, -, hc⟩
      · simp [Fault.kind, hc, Fault.Cause.kind] at hf
      · exact ⟨hp, hw, hd⟩
      · simp [Fault.kind, hc, Fault.Cause.kind] at hf
    · rintro ⟨hp, hw, hd⟩
      exact ⟨⟨.stackUnderflow, _⟩, rfl,
        step_eq_fault_iff.2 ⟨hp, rfl, .inr ⟨_, hw, by simp [obstacle?, hd]⟩⟩⟩
  noSuchKey v := by
    constructor
    · rintro ⟨f, hf, h⟩
      have hk : f.kind = .noSuchKey := by rw [Fault.kind, hf]; rfl
      obtain ⟨hp, -, i, hw, ho⟩ := (step_eq_heldUp_iff (by simp [hk, Fault.Kind.lineage])).1 h
      rw [hf] at ho
      rcases obstacle?_eq_some_iff.1 ho with ⟨hc, -⟩ | ⟨hc, -⟩ | ⟨x, hi, hx, hc⟩
      · cases hc
      · cases hc
      · refine ⟨hp, x, ?_, hx, by simpa using hc⟩
        rcases hi with rfl | rfl
        · exact .inl hw
        · exact .inr hw
    · rintro ⟨hp, x, hw, hx, rfl⟩
      refine ⟨⟨.noSuchKey (m.register x).toNat, _⟩, rfl, step_eq_fault_iff.2 ⟨hp, rfl, .inr ?_⟩⟩
      rcases hw with hw | hw
      · exact ⟨_, hw, by simp [obstacle?, hx]⟩
      · exact ⟨_, hw, by simp [obstacle?, hx]⟩
  success := by
    rw [step_ok_iff]
    have hnone : ∀ i, m.obstacle? i = none ↔ ¬((∃ a, i = .call a) ∧ m.stack.depth = 16) ∧
        ¬(i = .ret ∧ m.stack.depth = 0) ∧
        ¬∃ x, (i = .skipDown x ∨ i = .skipUp x) ∧ 15 < (m.register x).toNat := by
      intro i
      cases i <;> simp [obstacle?]
    simp only [hnone]
  located f h := (step_eq_fault_iff.1 h).2.1
  after_unresolved e h := by
    rcases step_snd_of_error h with ⟨_, -, hm⟩ | ⟨_, h', -⟩ | ⟨_, _, h', -⟩
    · exact hm
    · cases h'
    · cases h'
  after_decoding f hf h := by
    obtain ⟨-, -, ⟨hw, hc⟩ | ⟨i, -, ho⟩⟩ := step_eq_fault_iff.1 h
    · refine ⟨?_, hc.trans (Instruction.undecodable_eq _)⟩
      rcases step_snd_of_error h with ⟨_, h', -⟩ | ⟨_, -, -, hm⟩ | ⟨_, _, -, hw', -⟩
      · cases h'
      · exact hm
      · rw [hw] at hw'
        cases hw'
    · exact absurd hf (machine_mem_lineage_obstacle ho).2
  after_machine f hf h := by
    have hm : (m.step press).2 = m.tick.advance := by
      rcases step_snd_of_error h with ⟨_, h', -⟩ | ⟨f', h', hw, -⟩ | ⟨_, _, -, -, -, hm⟩
      · cases h'
      · obtain ⟨-, -, ⟨-, hc⟩ | ⟨i, hw', -⟩⟩ := step_eq_fault_iff.1 h
        · rw [Fault.kind, hc, Instruction.undecodable_eq] at hf
          split at hf <;> simp [Fault.Cause.kind, Fault.Kind.lineage] at hf
        · rw [hw] at hw'
          cases hw'
      · exact hm
    refine ⟨hm, ?_⟩
    rw [hm]
    exact BitVec.toNat_add m.pc 2
  quiet failure h := by
    constructor
    · rcases step_snd_of_error h with ⟨_, -, hm⟩ | ⟨_, -, -, hm⟩ | ⟨_, _, -, -, -, hm⟩ <;> rw [hm] <;> rfl
    · rintro r rfl
      unfold Run.advance
      split
      next hd => rw [hd] at h; cases h
      next => rfl

end Machine
end Chip8
