/-
What a run takes from memory. A step reads its word at the program counter, and
a sprite or a block of registers from the index on; that is all. Machines that
differ in bytes that a run of one never reads answer alike all along, and they
go on differing in those bytes alone: a byte that the run stores to is the same
in both from then on, and every other byte stays what it was in either.
-/
import Chip8.Proofs.Effect
import Chip8.Proofs.Failure

namespace Chip8.Machine

/-- The addresses that an instruction reads. -/
def readWindow (m : Machine) : Instruction → List Address
  | .draw _ _ n => Address.window m.index n.toNat
  | .loadRegisters x => Address.window m.index (x.toNat + 1)
  | _ => []

/-- The addresses that a step reads: those of its word, and those that the
instruction there reads. -/
def reads (m : Machine) (press : Option Key.Reference) : List Address :=
  match resolvePress press with
  | .error _ => []
  | .ok _ =>
    Address.window (m.pc.setWidth 12) 2 ++
      match Instruction.ofWord? m.fetch with
      | some i => m.readWindow i
      | none => []

section Reads

variable {m : Machine} {press : Option Key.Reference} {a : Address}

theorem mem_readWindow {i : Instruction} : a ∈ m.readWindow i ↔
    (∃ x y n, i = .draw x y n ∧ ∃ k < n.toNat, a.toNat = (m.index.toNat + k) % 4096) ∨
      ∃ x, i = .loadRegisters x ∧ ∃ k ≤ x.toNat, a.toNat = (m.index.toNat + k) % 4096 := by
  cases i with
  | draw x y n =>
    simp only [readWindow, Address.mem_window_iff_toNat]
    constructor
    · rintro ⟨k, hk, ha⟩
      exact .inl ⟨x, y, n, rfl, k, hk, ha⟩
    · rintro (⟨_, _, _, ⟨rfl, rfl, rfl⟩, h⟩ | ⟨_, hi, _⟩)
      · exact h
      · cases hi
  | loadRegisters x =>
    simp only [readWindow, Address.mem_window_iff_toNat, Nat.lt_succ_iff]
    constructor
    · rintro ⟨k, hk, ha⟩
      exact .inr ⟨x, rfl, k, hk, ha⟩
    · rintro (⟨_, _, _, hi, _⟩ | ⟨_, ⟨rfl⟩, h⟩)
      · cases hi
      · exact h
  | _ => simp [readWindow]

theorem mem_reads : a ∈ m.reads press ↔ NamesKey press ∧
    ((∃ k < 2, a.toNat = (m.pc.toNat + k) % 4096) ∨
      ∃ i, Instruction.ofWord? m.fetch = some i ∧ a ∈ m.readWindow i) := by
  have hpc : (m.pc.setWidth 12).toNat = m.pc.toNat % 4096 := BitVec.toNat_setWidth ..
  rw [namesKey_iff, reads]
  cases resolvePress press with
  | error e => simp
  | ok key =>
    have hinstruction : (a ∈ match Instruction.ofWord? m.fetch with
        | some i => m.readWindow i
        | none => []) ↔ ∃ i, Instruction.ofWord? m.fetch = some i ∧ a ∈ m.readWindow i := by
      cases Instruction.ofWord? m.fetch <;> simp
    simp [hinstruction, Address.mem_window_iff_toNat, hpc]

end Reads

/-- Machines that differ in nothing but the bytes at some addresses. -/
structure SameBut (A : Address → Prop) (m n : Machine) : Prop where
  rest : n = { m with memory := n.memory }
  programSize : n.memory.programSize = m.memory.programSize
  bytes : ∀ a, ¬ A a → n.memory.get a = m.memory.get a

theorem SameBut.mono {A B : Address → Prop} {m n : Machine} (h : m.SameBut A n)
    (hAB : ∀ a, A a → B a) : m.SameBut B n :=
  ⟨h.rest, h.programSize, fun a ha => h.bytes a fun hA => ha (hAB a hA)⟩

theorem sameBut_poke (m : Machine) (place : Int) (data : List Byte) :
    m.SameBut (· ∈ Address.window (BitVec.ofInt 12 place) data.length) (m.poke place data) :=
  ⟨rfl, Memory.programSize_writeBytes .., fun _ ha => Memory.get_writeBytes_of_not_mem ha⟩

/-! ## One step -/

/-- With another memory an instruction does the same, and the same to the other
memory, if it reads the same bytes there. -/
theorem execute_withMemory (m : Machine) {M : Memory} {i : Instruction}
    (h : ∀ a ∈ m.readWindow i, M.get a = m.memory.get a) (address : Word) (press : Option Key) :
    { m with memory := M }.execute i address press = (m.execute i address press).map fun m' =>
      { m' with memory := M.writeBytes m.index.toNat (m.stored i) } := by
  cases i with
  | call a =>
    simp only [execute]
    cases m.stack.push? m.pc <;> rfl
  | ret =>
    simp only [execute]
    cases m.stack.pop? <;> rfl
  | skipDown x | skipUp x =>
    have hsel : { m with memory := M }.selected x = m.selected x := rfl
    simp only [execute, hsel]
    cases m.selected x with
    | error c => rfl
    | ok b => simp only [Except.map, skipIf_eq]; rfl
  | awaitKey x => cases press <;> rfl
  | draw x y n =>
    have hread : M.readBytes m.index.toNat n.toNat = m.memory.readBytes m.index.toNat n.toNat := by
      refine Memory.readBytes_congr fun a ha => h a ?_
      rwa [ofInt_toNat, BitVec.setWidth_eq, Int.toNat_natCast] at ha
    simp only [execute, drawSprite, hread]
    rfl
  | loadRegisters x =>
    have hread : M.readBytes m.index.toNat (x.toNat + 1) =
        m.memory.readBytes m.index.toNat (x.toNat + 1) := by
      refine Memory.readBytes_congr fun a ha => h a ?_
      rwa [ofInt_toNat, BitVec.setWidth_eq] at ha
    simp only [execute, passBlock_eq, hread]
    rfl
  | _ =>
    simp only [execute, skipIf_eq, yieldLogic_eq, passBlock_eq]
    rfl

theorem fetch_withMemory {m : Machine} {M : Memory} {press : Option Key.Reference} {key : Option Key}
    (hp : resolvePress press = .ok key) (h : ∀ a ∈ m.reads press, M.get a = m.memory.get a) :
    { m with memory := M }.fetch = m.fetch := by
  refine Memory.readWord_congr fun a ha => h a ?_
  have hpc : a ∈ Address.window (m.pc.setWidth 12) 2 := ofInt_toNat m.pc ▸ ha
  unfold reads
  rw [hp]
  exact List.mem_append_left _ hpc

/-- With another memory a step does the same, if it reads the same bytes there. -/
theorem step_withMemory {m : Machine} {M : Memory} {press : Option Key.Reference}
    (h : ∀ a ∈ m.reads press, M.get a = m.memory.get a) :
    { m with memory := M }.step press = ((m.step press).1, { (m.step press).2 with
      memory := M.writeBytes m.index.toNat (m.storedBy (m.step press).1) }) := by
  apply StepsTo.eq
  have hs := m.stepsTo press
  generalize m.step press = r at hs
  cases hs with
  | unresolved hp => exact .unresolved hp
  | undecodable hp hw =>
    have hfetch := fetch_withMemory hp h
    have hstep := StepsTo.undecodable hp (hfetch ▸ hw)
    rw [hfetch] at hstep
    exact hstep
  | heldUp hp hw ho =>
    have hfetch := fetch_withMemory hp h
    exact .heldUp hp (hfetch ▸ hw) ((obstacle?_congr rfl rfl _).trans ho)
  | @done key i m' hp hw ho hx =>
    have hfetch := fetch_withMemory hp h
    refine .done hp (hfetch ▸ hw) ((obstacle?_congr rfl rfl _).trans ho) ?_
    have hread : ∀ a ∈ m.tick.advance.readWindow i, M.get a = m.tick.advance.memory.get a := by
      intro a ha
      refine h a ?_
      unfold reads
      rw [hp, hw]
      exact List.mem_append_right _ ha
    have hexecute := m.tick.advance.execute_withMemory hread m.pc key
    rw [hx] at hexecute
    exact hexecute

theorem step_sameBut {m n : Machine} {A : Address → Prop} {press : Option Key.Reference}
    (h : m.SameBut A n) (hreads : ∀ a, A a → a ∉ m.reads press) :
    (n.step press).1 = (m.step press).1 ∧
      (m.step press).2.SameBut (fun a => A a ∧ a ∉ m.writes press) (n.step press).2 ∧
      ∀ a, a ∉ m.writes press → (n.step press).2.memory.get a = n.memory.get a := by
  obtain ⟨M, rfl⟩ : ∃ M, n = { m with memory := M } := ⟨_, h.rest⟩
  have hread : ∀ a ∈ m.reads press, M.get a = m.memory.get a :=
    fun a ha => h.bytes a fun hA => hreads a hA ha
  rw [step_withMemory hread]
  refine ⟨rfl, ⟨rfl, ?_, fun a ha => ?_⟩, fun a ha => ?_⟩
  · rw [Memory.programSize_writeBytes, (m.step_confined press).programSize]
    exact h.programSize
  · rw [m.step_memory press]
    refine Memory.get_writeBytes_congr ?_
    rw [m.window_storedBy press]
    by_cases hA : A a
    · exact .inl (Decidable.byContradiction fun hw => ha ⟨hA, hw⟩)
    · exact .inr (h.bytes a hA)
  · refine Memory.get_writeBytes_of_not_mem ?_
    rwa [m.window_storedBy press]

/-! ## Many steps -/

theorem after_sameBut {m n : Machine} {A : Address → Prop} {presses : List (Option Key.Reference)}
    (h : m.SameBut A n) (hreads : ∀ a, A a → a ∉ m.along reads presses) :
    n.results presses = m.results presses ∧
      (m.after presses).SameBut (fun a => A a ∧ a ∉ m.along writes presses) (n.after presses) ∧
      ∀ a, a ∉ m.along writes presses → (n.after presses).memory.get a = n.memory.get a := by
  induction presses generalizing m n A with
  | nil => exact ⟨rfl, h.mono fun a ha => ⟨ha, by simp [along]⟩, fun _ _ => rfl⟩
  | cons p ps ih =>
    simp only [along, List.mem_append, not_or] at hreads ⊢
    obtain ⟨hresult, hsame, hown⟩ := step_sameBut h fun a ha => (hreads a ha).1
    obtain ⟨hresults, hsame', hown'⟩ := ih hsame fun a ha => (hreads a ha.1).2
    refine ⟨by rw [results, results, hresult, hresults], ?_, fun a ha => ?_⟩
    · exact hsame'.mono fun a ha => ⟨ha.1.1, ha.1.2, ha.2⟩
    · rw [after_cons, hown' a ha.2, hown a ha.1]

/-- **A run depends on memory through what it reads alone.** A step reads the two
bytes at the program counter, the sprite that it draws and the registers that it
loads. Machines that differ in bytes that the steps of one never read answer
alike, and differ in those bytes alone afterwards: a byte that has been stored
to is the same in both, and any other is what it was in either. -/
theorem run_dependsOn_reads (m : Machine) :
    (∀ press a, a ∈ m.reads press ↔ NamesKey press ∧
      ((∃ k < 2, a.toNat = (m.pc.toNat + k) % 4096) ∨
        (∃ x y n, Instruction.ofWord? m.fetch = some (.draw x y n) ∧
          ∃ k < n.toNat, a.toNat = (m.index.toNat + k) % 4096) ∨
        ∃ x, Instruction.ofWord? m.fetch = some (.loadRegisters x) ∧
          ∃ k ≤ x.toNat, a.toNat = (m.index.toNat + k) % 4096)) ∧
    ∀ (n : Machine) (A : Address → Prop) (presses : List (Option Key.Reference)), m.SameBut A n →
      (∀ a, A a → a ∉ m.along reads presses) →
      n.results presses = m.results presses ∧
      (m.after presses).SameBut A (n.after presses) ∧
      (∀ a ∈ m.along writes presses,
        (n.after presses).memory.get a = (m.after presses).memory.get a) ∧
      ∀ a ∉ m.along writes presses, (m.after presses).memory.get a = m.memory.get a ∧
        (n.after presses).memory.get a = n.memory.get a := by
  refine ⟨fun press a => ?_, fun n A presses h hreads => ?_⟩
  · rw [mem_reads]
    refine and_congr_right fun _ => or_congr_right ?_
    constructor
    · rintro ⟨i, hi, ha⟩
      rcases mem_readWindow.1 ha with ⟨x, y, n, rfl, h⟩ | ⟨x, rfl, h⟩
      · exact .inl ⟨x, y, n, hi, h⟩
      · exact .inr ⟨x, hi, h⟩
    · rintro (⟨x, y, n, hi, h⟩ | ⟨x, hi, h⟩)
      · exact ⟨_, hi, mem_readWindow.2 (.inl ⟨x, y, n, rfl, h⟩)⟩
      · exact ⟨_, hi, mem_readWindow.2 (.inr ⟨x, rfl, h⟩)⟩
  obtain ⟨hresults, hsame, hown⟩ := after_sameBut h hreads
  refine ⟨hresults, hsame.mono fun a ha => ha.1, fun a ha => ?_, fun a ha => ?_⟩
  · exact hsame.bytes a fun hA => hA.2 ha
  · exact ⟨get_after_of_not_mem ha, hown a ha⟩

/-- Of two bytes that are never read, one is stored to and the other is not. -/
theorem storing_unread :
    storing.SameBut (· ∈ Address.window 0x300 2) (storing.poke 0x300 [9, 7]) ∧
      (∀ a ∈ Address.window 0x300 2, a ∉ storing.along reads [none, none]) ∧
      (storing.poke 0x300 [9, 7]).results [none, none] = storing.results [none, none] ∧
      ((storing.poke 0x300 [9, 7]).after [none, none]).memory.get 0x300 =
        (storing.after [none, none]).memory.get 0x300 ∧
      ((storing.poke 0x300 [9, 7]).after [none, none]).memory.get 0x301 =
        (storing.poke 0x300 [9, 7]).memory.get 0x301 := by
  have hsame : storing.SameBut (· ∈ Address.window 0x300 2) (storing.poke 0x300 [9, 7]) :=
    sameBut_poke storing 0x300 [9, 7]
  have hreads : storing.along reads [none, none] = [0x200, 0x201, 0x202, 0x203] := by
    decide +kernel
  have hwrites : storing.along writes [none, none] = [0x300] := by decide +kernel
  have hunread : ∀ a ∈ Address.window 0x300 2, a ∉ storing.along reads [none, none] := by
    simp [hreads, Address.window, List.range_succ]
  obtain ⟨hresults, -, hstored, hown⟩ :=
    (run_dependsOn_reads storing).2 _ _ [none, none] hsame hunread
  rw [hwrites] at hstored hown
  exact ⟨hsame, hunread, hresults, hstored 0x300 (by decide), (hown 0x301 (by decide)).2⟩

end Chip8.Machine
