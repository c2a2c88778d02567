/-
What a step may change. Each part of the machine has its instructions: two draw,
five move the index, two use the stack, two set a timer, two store to memory,
each in a window that starts at the index; a few registers are set by each of
the others. The keypad, the dialect and the size of the program are never
touched, and a failing step touches nothing but timers and program counter.

`Frame` says so of an instruction and `Confined` of a step. A run changes a byte
only by a step that stores to it.
-/
import Chip8.Except
import Chip8.Proofs.Memory
import Chip8.Proofs.Step
import Chip8.Proofs.Steps

namespace Chip8

/-! ## What instructions are for -/

namespace Instruction

/-- Whether an instruction draws on the screen or clears it. -/
def draws : Instruction → Bool
  | clear | draw .. => true
  | _ => false

/-- Whether an instruction moves the index in a dialect. -/
def movesIndex (d : Dialect) : Instruction → Bool
  | loadIndex _ | addIndex _ | loadGlyph _ => true
  | storeRegisters _ | loadRegisters _ => d.blocksMoveIndex
  | _ => false

/-- Whether an instruction is a call or a return. -/
def usesStack : Instruction → Bool
  | call _ | ret => true
  | _ => false

/-- Whether an instruction fetched from an address jumps to itself. -/
def jumpsToItself (address : Word) : Instruction → Bool
  | jump a => a.setWidth 16 == address
  | _ => false

theorem jumpsToItself_iff {i : Instruction} {address : Word} : i.jumpsToItself address = true ↔
    ∃ a, i = .jump a ∧ a.toNat = address.toNat := by
  cases i with
  | jump a =>
    have ha : (a.setWidth 16).toNat = a.toNat := BitVec.toNat_setWidth_of_le (by omega)
    constructor
    · intro h
      exact ⟨a, rfl, by rw [← eq_of_beq h, ha]⟩
    · rintro ⟨_, ⟨⟩, h⟩
      exact beq_of_eq (BitVec.eq_of_toNat_eq (ha.trans h))
  | _ => simp [jumpsToItself]

/-- The registers that an instruction may set. -/
def targets : Instruction → List Register
  | loadByte x _ | addByte x _ | random x _ | load x _ | readDelay x | awaitKey x => [x]
  | or x _ | and x _ | xor x _ | add x _ | sub x _ | subFrom x _ | shiftRight x _ | shiftLeft x _ =>
    [x, .flag]
  | draw .. => [.flag]
  | loadRegisters x => Register.all.filter (· ≤ x)
  | _ => []

theorem mem_targets {i : Instruction} {r : Register} (h : r ∈ i.targets) :
    r = .flag ∨ .x r ∈ i.operands ∨ ∃ x, i = .loadRegisters x ∧ r ≤ x := by
  cases i <;> simp_all [targets, operands, or_comm]

end Instruction

/-! ## Registers that are set -/

namespace RegisterFile

variable (f : RegisterFile) (x r : Register)

theorem read_write_or (b : Byte) : r ∈ [x] ∨ (f.write x b).read r = f.read r := by
  by_cases h : x = r
  · exact .inl (by simp [h])
  · exact .inr (by simp [h])

theorem read_writeFlag_or (c : Bool) : r ∈ [Register.flag] ∨ (f.writeFlag c).read r = f.read r :=
  f.read_write_or .flag r _

theorem read_flagged_or (b : Byte) (c : Bool) :
    r ∈ [x, .flag] ∨ ((f.write x b).writeFlag c).read r = f.read r := by
  rcases (f.write x b).read_writeFlag_or r c with hflag | hflag
  · exact .inl (List.mem_cons_of_mem x hflag)
  · rcases f.read_write_or x r b with hx | hx
    · exact .inl (List.mem_cons.2 (.inl (List.mem_singleton.1 hx)))
    · exact .inr (hflag.trans hx)

theorem read_loadBlock (values : List Byte) :
    (f.loadBlock values).read r = values[r.toNat]?.getD (f.read r) := by
  simp [loadBlock, read]

theorem read_loadBlock_or {values : List Byte} (h : values.length = x.toNat + 1) :
    r ∈ Register.all.filter (· ≤ x) ∨ (f.loadBlock values).read r = f.read r := by
  by_cases hle : r ≤ x
  · refine .inl (List.mem_filter.2 ⟨?_, by simpa using hle⟩)
    exact List.mem_map.2 ⟨r.toNat, List.mem_range.2 r.isLt, by simp⟩
  · have hlt : values.length ≤ r.toNat := by
      have := BitVec.lt_def.1 (BitVec.not_le.1 hle)
      omega
    exact .inr (by rw [read_loadBlock, List.getElem?_eq_none hlt, Option.getD_none])

theorem length_block : (f.block x).length = x.toNat + 1 := by
  have := x.isLt
  simp [block, toList]
  omega

end RegisterFile

namespace Machine

/-- The addresses that an instruction stores to. -/
def writeWindow (m : Machine) : Instruction → List Address
  | .storeDecimal _ => Address.window m.index 3
  | .storeRegisters x => Address.window m.index (x.toNat + 1)
  | _ => []

/-- The bytes that an instruction stores from the index on. -/
def stored (m : Machine) : Instruction → List Byte
  | .storeDecimal x => decimalDigits (m.register x)
  | .storeRegisters x => m.registers.block x
  | _ => []

/-- The timers after an instruction. -/
def timed (m : Machine) : Instruction → Timers
  | .setDelay x => { m.timers with delay := m.register x }
  | .setSound x => { m.timers with sound := m.register x }
  | _ => m.timers

theorem window_stored (m : Machine) (i : Instruction) :
    Address.window m.index (m.stored i).length = m.writeWindow i := by
  cases i with
  | storeRegisters x => rw [stored, RegisterFile.length_block, writeWindow]
  | _ => rfl

/-- What an instruction fetched from `address` leaves as it was, unless it is
for just that. -/
structure Frame (m : Machine) (i : Instruction) (address : Word) (m' : Machine) : Prop where
  keypad : m'.keypad = m.keypad := by rfl
  dialect : m'.dialect = m.dialect := by rfl
  clock : m'.clock = m.clock := by rfl
  halted : m'.halted = (m.halted || i.jumpsToItself address) := by exact (Bool.or_false _).symm
  screen : i.draws = true ∨ m'.screen = m.screen := by exact .inr rfl
  index : i.movesIndex m.dialect = true ∨ m'.index = m.index := by exact .inr rfl
  stack : i.usesStack = true ∨ m'.stack = m.stack := by exact .inr rfl
  timers : m'.timers = m.timed i := by rfl
  random : (∃ x b, i = .random x b ∧ m'.random = m.random.advance) ∨ m'.random = m.random := by
    exact .inr rfl
  registers : ∀ r, r ∈ i.targets ∨ m'.register r = m.register r := by exact fun _ => .inr rfl
  memory : m'.memory = m.memory.writeBytes m.index.toNat (m.stored i) := by rfl

theorem execute_frame {m m' : Machine} {i : Instruction} {address : Word} {press : Option Key}
    (h : m.execute i address press = .ok m') : m.Frame i address m' := by
  cases i with
  | clear => cases h; exact { screen := .inl rfl }
  | ret =>
    simp only [execute] at h
    split at h
    next => cases h; exact { stack := .inl rfl }
    next => cases h
  | jump a =>
    cases h
    exact { halted := rfl }
  | call a =>
    simp only [execute] at h
    split at h
    next => cases h; exact { stack := .inl rfl }
    next => cases h
  | jumpOffset a => cases h; exact {}
  | skipEqByte | skipNeByte | skipEq | skipNe =>
    simp only [execute, skipIf_eq] at h
    cases h
    exact {}
  | skipDown x | skipUp x =>
    obtain ⟨k, -, rfl⟩ := map_eq_ok_iff.1 h
    rw [skipIf_eq]
    exact {}
  | loadByte x | addByte x | load x | readDelay x =>
    cases h
    exact { registers := fun r => m.registers.read_write_or x r _ }
  | random x b =>
    cases h
    exact {
      random := .inl ⟨x, b, rfl, rfl⟩
      registers := fun r => m.registers.read_write_or x r _ }
  | or x | and x | xor x =>
    simp only [execute, yieldLogic_eq] at h
    cases h
    refine { registers := fun r => ?_ }
    simp only [register]
    split
    · exact m.registers.read_flagged_or x r _ _
    · exact (m.registers.read_write_or x r _).imp (List.mem_cons.2 <| .inl <| List.mem_singleton.1 ·) id
  | add x | sub x | subFrom x | shiftRight x | shiftLeft x =>
    cases h
    exact { registers := fun r => m.registers.read_flagged_or x r _ _ }
  | loadIndex | addIndex | loadGlyph => cases h; exact { index := .inl rfl }
  | draw =>
    cases h
    exact { screen := .inl rfl, registers := fun r => m.registers.read_writeFlag_or r _ }
  | setDelay | setSound => cases h; exact {}
  | awaitKey x =>
    cases press with
    | none => cases h; exact {}
    | some k => cases h; exact { registers := fun r => m.registers.read_write_or x r _ }
  | storeDecimal x => cases h; exact {}
  | storeRegisters x =>
    simp only [execute, passBlock_eq] at h
    cases h
    exact { index := (Decidable.em _).imp id fun h => if_neg h }
  | loadRegisters x =>
    simp only [execute, passBlock_eq] at h
    cases h
    exact {
      index := (Decidable.em _).imp id fun h => if_neg h
      registers := fun r => m.registers.read_loadBlock_or x r (by simp [Memory.readBytes]) }

/-! ## Steps -/

/-- What a step with a given result may have changed. -/
structure Confined (m : Machine) (r : Except Failure Executed × Machine) : Prop where
  keypad : r.2.keypad = m.keypad
  dialect : r.2.dialect = m.dialect
  programSize : r.2.memory.programSize = m.memory.programSize
  /-- Nothing ends a halt, and only a jump to itself begins one. -/
  halted : r.2.halted = true ↔
    m.halted = true ∨ ∃ a, r.1 = .ok ⟨m.pc, .jump a⟩ ∧ a.toNat = m.pc.toNat
  clock : r.2.clock = match r.1 with
    | .error (.unresolvedKey _) => m.clock
    | _ => m.clock.advance
  random : r.2.random = m.random ∨
    ∃ x b, r.1 = .ok ⟨m.pc, .random x b⟩ ∧ r.2.random = m.random.advance
  screen : r.2.screen ≠ m.screen → ∃ i, r.1 = .ok ⟨m.pc, i⟩ ∧ i.draws = true
  index : r.2.index ≠ m.index → ∃ i, r.1 = .ok ⟨m.pc, i⟩ ∧ i.movesIndex m.dialect = true
  stack : r.2.stack ≠ m.stack → ∃ i, r.1 = .ok ⟨m.pc, i⟩ ∧ i.usesStack = true
  /-- The timers tick unless the key is unknown, and two instructions set one. -/
  timers : r.2.timers = match r.1 with
    | .error (.unresolvedKey _) => m.timers
    | .error (.fault _) => m.timers.tick m.clock.peek
    | .ok ⟨_, .setDelay x⟩ => { m.timers.tick m.clock.peek with delay := m.register x }
    | .ok ⟨_, .setSound x⟩ => { m.timers.tick m.clock.peek with sound := m.register x }
    | .ok _ => m.timers.tick m.clock.peek
  registers : ∀ k, r.2.register k ≠ m.register k → ∃ i, r.1 = .ok ⟨m.pc, i⟩ ∧ k ∈ i.targets
  /-- A register that an instruction names second, or not at all, is set by
  loading a block alone. -/
  otherRegisters : ∀ k, r.2.register k ≠ m.register k → k ≠ .flag →
    ∃ i, r.1 = .ok ⟨m.pc, i⟩ ∧ (.x k ∈ i.operands ∨ ∃ x, i = .loadRegisters x ∧ k ≤ x)
  memory : ∀ a, r.2.memory.get a ≠ m.memory.get a →
    ∃ i, r.1 = .ok ⟨m.pc, i⟩ ∧ a ∈ m.writeWindow i

/-- The bytes that a step stores from the index on, by its result. -/
def storedBy (m : Machine) : Except Failure Executed → List Byte
  | .ok d => m.stored d.instruction
  | .error _ => []

/-- Outside the window that an instruction stores to, memory stays as it was. -/
theorem Frame.get_memory {m m' : Machine} {i : Instruction} {address : Word}
    (h : m.Frame i address m') {a : Address} (ha : a ∉ m.writeWindow i) :
    m'.memory.get a = m.memory.get a := by
  rw [h.memory]
  apply Memory.get_writeBytes_of_not_mem
  rwa [ofInt_toNat, BitVec.setWidth_eq, window_stored]

/-- A step that is carried out is confined to what its instruction is for. -/
theorem Frame.confined {m m' : Machine} {i : Instruction} (h : m.tick.advance.Frame i m.pc m') :
    m.Confined (.ok ⟨m.pc, i⟩, m') where
  keypad := h.keypad
  dialect := h.dialect
  programSize := by rw [h.memory]; exact Memory.programSize_writeBytes ..
  halted := by
    have hhalted : m'.halted = (m.halted || i.jumpsToItself m.pc) := h.halted
    simp [hhalted, Instruction.jumpsToItself_iff]
  clock := h.clock
  random := h.random.symm.imp id fun ⟨x, b, hi, hadvance⟩ => ⟨x, b, by rw [hi], hadvance⟩
  screen hne := ⟨i, rfl, h.screen.resolve_right hne⟩
  index hne := ⟨i, rfl, h.index.resolve_right hne⟩
  stack hne := ⟨i, rfl, h.stack.resolve_right hne⟩
  timers := by
    have htimers := h.timers
    cases i <;> exact htimers
  registers k hne := ⟨i, rfl, (h.registers k).resolve_right hne⟩
  otherRegisters k hne hflag :=
    ⟨i, rfl, (Instruction.mem_targets ((h.registers k).resolve_right hne)).resolve_left hflag⟩
  memory a hne := ⟨i, rfl, Classical.byContradiction fun ha => hne (h.get_memory ha)⟩

theorem step_confined (m : Machine) (press : Option Key.Reference) : m.Confined (m.step press) := by
  have h := m.stepsTo press
  generalize m.step press = r at h
  cases h with
  | unresolved hp | undecodable hp hw | heldUp hp hw ho =>
    exact {
      keypad := rfl
      dialect := rfl
      programSize := rfl
      halted := (or_iff_left (by simp)).symm
      clock := rfl
      random := .inl rfl
      screen := fun hne => absurd rfl hne
      index := fun hne => absurd rfl hne
      stack := fun hne => absurd rfl hne
      timers := rfl
      registers := fun _ hne => absurd rfl hne
      otherRegisters := fun _ hne => absurd rfl hne
      memory := fun _ hne => absurd rfl hne }
  | done hp hw ho hx => exact (execute_frame hx).confined

/-! ## Stores of a run -/

/-- The addresses that a step stores to. -/
def writes (m : Machine) (press : Option Key.Reference) : List Address :=
  match (m.step press).1 with
  | .ok d => m.writeWindow d.instruction
  | .error _ => []

theorem mem_writes {m : Machine} {press : Option Key.Reference} {a : Address} : a ∈ m.writes press ↔
    ∃ i, (m.step press).1 = .ok ⟨m.pc, i⟩ ∧ a ∈ m.writeWindow i := by
  unfold writes
  split
  next d hd =>
    constructor
    · intro ha
      exact ⟨d.instruction, by rw [hd, ← address_of_ok hd], ha⟩
    · rintro ⟨i, hi, ha⟩
      rw [hd] at hi
      cases hi
      exact ha
  next e he => simp [he]

theorem window_storedBy (m : Machine) (press : Option Key.Reference) :
    Address.window (BitVec.ofInt 12 m.index.toNat) (m.storedBy (m.step press).1).length =
      m.writes press := by
  rw [ofInt_toNat, BitVec.setWidth_eq]
  unfold writes
  cases (m.step press).1 with
  | error e => rfl
  | ok d => exact m.window_stored d.instruction

theorem step_memory (m : Machine) (press : Option Key.Reference) : (m.step press).2.memory =
    m.memory.writeBytes m.index.toNat (m.storedBy (m.step press).1) := by
  have h := m.stepsTo press
  generalize m.step press = r at h
  cases h with
  | unresolved | undecodable | heldUp => rfl
  | done hp hw ho hx => exact (execute_frame hx).memory

/-- A byte that no step stores to stays as it was. -/
theorem get_after_of_not_mem {m : Machine} {presses : List (Option Key.Reference)} {a : Address}
    (h : a ∉ m.along writes presses) : (m.after presses).memory.get a = m.memory.get a := by
  refine after_keeps (·.memory.get a) (fun m press ha => ?_) h
  refine Decidable.byContradiction fun hne => ha ?_
  exact mem_writes.2 ((m.step_confined press).memory a hne)

/-- **Effects are confined.** A step changes each part of the machine only by an
instruction that is for it, and after any steps a byte that has changed lies in
the window of a store among them. -/
theorem effects_confined (m : Machine) :
    (∀ press, m.Confined (m.step press)) ∧
    ∀ presses a, (m.after presses).memory.get a ≠ m.memory.get a →
      ∃ before press later i, presses = before ++ press :: later ∧
        ((m.after before).step press).1 = .ok ⟨(m.after before).pc, i⟩ ∧
        a ∈ (m.after before).writeWindow i := by
  refine ⟨m.step_confined, fun presses a hne => ?_⟩
  have hmem : a ∈ m.along writes presses := Decidable.byContradiction fun h =>
    hne (get_after_of_not_mem h)
  obtain ⟨before, press, later, heq, ha⟩ := mem_along.1 hmem
  obtain ⟨i, hi, ha⟩ := mem_writes.1 ha
  exact ⟨before, press, later, i, heq, hi, ha⟩

/-- A machine with a program to try out, 5 in `V0`, and one return address. -/
def trial (program : List Byte) : Machine where
  memory := (⟨Vector.replicate 4096 0, program.length⟩ : Memory).writeBytes 0x200 program
  registers := RegisterFile.write {} 0 5
  stack := { depth := 1 }
  timers := .start 0
  clock := .constant 0
  random := .constant 0

/-- A machine about to store `V0` at `$300`. -/
def storing : Machine := trial [0xA3, 0x00, 0xF0, 0x55]

theorem storing_effect :
    (storing.after [none, none]).memory.get 0x300 ≠ storing.memory.get 0x300 ∧
    ∃ before press later i, [none, none] = before ++ press :: later ∧
      ((storing.after before).step press).1 = .ok ⟨(storing.after before).pc, i⟩ ∧
      0x300 ∈ (storing.after before).writeWindow i := by
  have hne : (storing.after [none, none]).memory.get 0x300 ≠ storing.memory.get 0x300 := by
    decide +kernel
  exact ⟨hne, (effects_confined storing).2 [none, none] 0x300 hne⟩

end Machine
end Chip8
