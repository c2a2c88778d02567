/-
A machine in plain numbers (`Machine.plain`), and what reading and writing its
parts comes to there: on numbers that stem from a machine no access misses its
list, and reducing a number by hand is what its bit vector does by itself.

The numbers that stem from a machine are the well-formed ones.
-/
import Chip8.Proofs.Decoding
import Chip8.Proofs.Plain
import Chip8.Proofs.Quantity.Bits
import Chip8.Proofs.Screen

namespace Chip8

/-! ## Numbers of bit vectors -/

theorem toNat_ofInt_of_range {w : Nat} {v : Int} (h : 0 ≤ v ∧ v < 2 ^ w) :
    ((BitVec.ofInt w v).toNat : Int) = v := by
  rw [toNat_ofInt_cast, Int.emod_eq_of_lt h.1 h.2]

theorem toNat_cast_range {w : Nat} (b : BitVec w) : 0 ≤ (b.toNat : Int) ∧ (b.toNat : Int) < 2 ^ w := by
  have := b.isLt
  constructor
  · omega
  · exact_mod_cast this

namespace Plain

/-- Bit vectors as plain numbers. -/
def numbers {n w : Nat} (v : Vector (BitVec w) n) : List Int := v.toList.map fun b => (b.toNat : Int)

section Lists

variable {n w : Nat} {v : Vector (BitVec w) n} {k : Nat}

@[simp] theorem length_numbers (v : Vector (BitVec w) n) : (numbers v).length = n := by
  simp [numbers]

theorem range_of_mem_numbers {a : Int} (h : a ∈ numbers v) : 0 ≤ a ∧ a < 2 ^ w := by
  simp only [numbers, List.mem_map] at h
  obtain ⟨b, -, rfl⟩ := h
  exact toNat_cast_range b

theorem at?_natCast {α : Type} (xs : List α) (k : Nat) : at? xs (k : Int) = xs[k]? := by
  simp [at?]

theorem put?_natCast {α : Type} {xs : List α} (h : k < xs.length) (a : α) :
    put? xs (k : Int) a = some (xs.set k a) := by
  have : 0 ≤ (k : Int) ∧ (k : Int) < xs.length := by omega
  rw [put?, if_pos this, Int.toNat_natCast]

theorem at?_numbers (v : Vector (BitVec w) n) (h : k < n) :
    at? (numbers v) (k : Int) = some (v[k].toNat : Int) := by
  simp [at?_natCast, numbers, h]

theorem put?_numbers (v : Vector (BitVec w) n) (h : k < n) (b : BitVec w) :
    put? (numbers v) (k : Int) b.toNat = some (numbers (v.set k b)) := by
  rw [put?_natCast (by simpa using h), numbers, numbers, Vector.toList_set, List.map_set]

theorem putByte?_numbers (v : Vector Byte n) (h : k < n) (b : Byte) :
    putByte? (numbers v) (k : Int) b.toNat = some (numbers (v.set k b)) := by
  have hb : 0 ≤ (b.toNat : Int) ∧ (b.toNat : Int) < 256 := toNat_cast_range b
  rw [putByte?, if_pos hb, put?_numbers v h]

theorem putByte?_numbers_ofInt (v : Vector Byte n) (h : k < n) (value : Int) :
    putByte? (numbers v) (k : Int) (value % 256) = some (numbers (v.set k (BitVec.ofInt 8 value))) := by
  rw [← putByte?_numbers v h, toNat_ofInt_cast]
  rfl

/-- A list of numbers in their range is one of bit vectors. -/
theorem exists_numbers {xs : List Int} (hn : xs.length = n) (hr : ∀ a ∈ xs, 0 ≤ a ∧ a < 2 ^ w) :
    ∃ v : Vector (BitVec w) n, xs = numbers v := by
  subst hn
  refine ⟨Vector.ofFn fun k => BitVec.ofInt w xs[k], List.ext_getElem (by simp) fun k hk hk' => ?_⟩
  simp only [numbers, Vector.toList_ofFn, List.getElem_map, List.getElem_ofFn]
  exact (toNat_ofInt_of_range (hr xs[k] (List.getElem_mem hk))).symm

end Lists

end Plain

/-- The machine in plain numbers. -/
def Machine.plain (m : Machine) : Plain where
  memory := Plain.numbers m.memory.bytes
  programSize := m.memory.programSize
  registers := Plain.numbers m.registers.values
  index := m.index.toNat
  pc := m.pc.toNat
  slots := Plain.numbers m.stack.slots
  sp := m.stack.depth
  pixels := m.screen.pixelRows.flatten
  keys := m.keypad.held.toList
  delay := m.timers.delay.toNat
  sound := m.timers.sound.toNat
  last := m.timers.last
  halted := m.halted
  dialect := m.dialect
  clock := m.clock
  random := m.random

namespace Machine

variable (m : Machine)

theorem wellFormed_plain : m.plain.WellFormed where
  memory_length := Plain.length_numbers _
  memory_byte _ h := Plain.range_of_mem_numbers h
  registers_length := Plain.length_numbers _
  registers_byte _ h := Plain.range_of_mem_numbers h
  index_address := toNat_cast_range m.index
  pc_word := toNat_cast_range m.pc
  slots_length := Plain.length_numbers _
  slots_word _ h := Plain.range_of_mem_numbers h
  sp_le := by
    have := m.stack.depth_le
    simp only [plain]
    omega
  pixels_length := by simp [plain, Screen.flatten_pixelRows]
  keys_length := by simp [plain]
  delay_byte := toNat_cast_range m.timers.delay
  sound_byte := toNat_cast_range m.timers.sound

/-! ## Reading and writing parts -/

@[simp] theorem plain_registers : m.plain.registers = Plain.numbers m.registers.values := rfl

@[simp] theorem plain_index : m.plain.index = m.index.toNat := rfl

@[simp] theorem plain_pc : m.plain.pc = m.pc.toNat := rfl

@[simp] theorem plain_slots : m.plain.slots = Plain.numbers m.stack.slots := rfl

@[simp] theorem plain_sp : m.plain.sp = m.stack.depth := rfl

@[simp] theorem plain_keys : m.plain.keys = m.keypad.held.toList := rfl

@[simp] theorem plain_delay : m.plain.delay = m.timers.delay.toNat := rfl

@[simp] theorem plain_halted : m.plain.halted = m.halted := rfl

@[simp] theorem plain_dialect : m.plain.dialect = m.dialect := rfl

@[simp] theorem plain_random : m.plain.random = m.random := rfl

theorem plain_register (r : Register) : m.plain.register r = some ((m.register r).toNat : Int) :=
  Plain.at?_numbers m.registers.values r.isLt

theorem plain_setRegister (r : Register) (value : Int) :
    m.plain.setRegister r value = some (m.yield r (BitVec.ofInt 8 value)).plain := by
  rw [Plain.setRegister, plain, Plain.putByte?_numbers_ofInt _ r.isLt]
  rfl

theorem plain_setFlag (b : Bool) : m.plain.setFlag b =
    some { m with registers := m.registers.writeFlag b }.plain := by
  have hb : (if b then 1 else 0 : Int) = ((if b then 1 else 0 : Byte).toNat : Int) := by
    cases b <;> rfl
  have h := Plain.putByte?_numbers m.registers.values (k := 15) (by omega) (if b then 1 else 0)
  rw [Plain.setFlag, hb]
  exact congrArg (Option.bind · _) h

theorem plain_setPc (value : Int) : m.plain.setPc value = (m.setPc value).plain := by
  simp only [Plain.setPc, setPc, plain, toNat_ofInt_cast]
  rfl

theorem plain_modifyIndex (f : Int → Int) :
    m.plain.modifyIndex f = (m.setIndex (f m.index.toNat)).plain := by
  simp only [Plain.modifyIndex, setIndex, plain, toNat_ofInt_cast]
  rfl

theorem plain_setDelay (value : Int) : m.plain.setDelay value = (m.setDelay value).plain := by
  simp only [Plain.setDelay, setDelay, Timers.setDelay, plain, toNat_ofInt_cast]
  rfl

theorem plain_setSound (value : Int) : m.plain.setSound value = (m.setSound value).plain := by
  simp only [Plain.setSound, setSound, Timers.setSound, plain, toNat_ofInt_cast]
  rfl

/-- Reducing a place by hand gives the number of an address. -/
theorem place_emod (place : Int) : place % 0x1000 = ((BitVec.ofInt 12 place).toNat : Int) :=
  (toNat_ofInt_cast 12 place).symm

theorem plain_read (place : Int) : m.plain.read place = some ((m.memory.read place).toNat : Int) := by
  rw [Plain.read, place_emod]
  exact Plain.at?_numbers m.memory.bytes (BitVec.ofInt 12 place).isLt

theorem plain_write (place value : Int) :
    m.plain.write place value = some { m with memory := m.memory.write place value }.plain := by
  rw [Plain.write, place_emod, plain, Plain.putByte?_numbers_ofInt _ (BitVec.ofInt 12 place).isLt]
  rfl

theorem plain_readWord (place : Int) :
    m.plain.readWord place = some ((m.memory.readWord place).toNat : Int) := by
  simp [Plain.readWord, plain_read, Memory.readWord, Word.toNat_ofBytes]

theorem plain_readBytes (place : Int) (count : Nat) : m.plain.readBytes place count =
    some ((m.memory.readBytes place count).map fun b => (b.toNat : Int)) := by
  simp only [Plain.readBytes, plain_read, Memory.readBytes, List.map_map, Int.toNat_natCast]
  exact List.mapM_pure

theorem plain_writeBytes (place : Int) (values : List Int) :
    m.plain.writeBytes place values = some (m.poke place (values.map (BitVec.ofInt 8))).plain := by
  induction values generalizing m place with
  | nil => rfl
  | cons b rest ih =>
    rw [Plain.writeBytes, plain_write]
    exact ih _ (place + 1)

end Machine

/-! ## Well-formed numbers -/

/-- Any 2048 flags are the pixels of a screen. -/
theorem Screen.exists_pixels {pixels : List Bool} (h : pixels.length = 2048) :
    ∃ s : Screen, pixels = s.pixelRows.flatten := by
  have hrow (y : Fin 32) : ((pixels.drop (64 * y)).take 64).length = 64 := by
    rw [List.length_take, List.length_drop]
    omega
  refine ⟨⟨Vector.ofFn fun y => (BitVec.ofBoolListBE ((pixels.drop (64 * y)).take 64)).cast (hrow y)⟩, ?_⟩
  rw [flatten_pixelRows]
  refine List.ext_getElem (by simp [h]) fun k hk hk' => ?_
  have hy : k / 64 < 32 := by omega
  have hx : k % 64 < 64 := Nat.mod_lt k (by omega)
  simp [lit_eq _ hy, hx, Nat.div_add_mod, hk]

namespace Plain

variable {p : Plain}

/-- Well-formed numbers stem from a machine. -/
theorem exists_of_wellFormed (h : p.WellFormed) : ∃ m : Machine, p = m.plain := by
  obtain ⟨bytes, hbytes⟩ := exists_numbers (w := 8) h.memory_length h.memory_byte
  obtain ⟨values, hvalues⟩ := exists_numbers (w := 8) h.registers_length h.registers_byte
  obtain ⟨slots, hslots⟩ := exists_numbers (w := 16) h.slots_length h.slots_word
  obtain ⟨screen, hscreen⟩ := Screen.exists_pixels h.pixels_length
  have hindex := toNat_ofInt_of_range (w := 12) h.index_address
  have hpc := toNat_ofInt_of_range (w := 16) h.pc_word
  have hsp := Int.toNat_of_nonneg h.sp_le.1
  have hle := h.sp_le.2
  have hdelay := toNat_ofInt_of_range (w := 8) h.delay_byte
  have hsound := toNat_ofInt_of_range (w := 8) h.sound_byte
  refine ⟨{
    memory := { bytes, programSize := p.programSize }
    registers := ⟨values⟩
    index := BitVec.ofInt 12 p.index
    pc := BitVec.ofInt 16 p.pc
    stack := { slots, depth := p.sp.toNat, depth_le := by omega }
    screen
    timers := ⟨BitVec.ofInt 8 p.delay, BitVec.ofInt 8 p.sound, p.last⟩
    keypad := ⟨⟨p.keys.toArray, by simp [h.keys_length]⟩⟩
    dialect := p.dialect
    halted := p.halted
    clock := p.clock
    random := p.random }, ?_⟩
  simp only [Machine.plain, ← hbytes, ← hvalues, ← hslots, ← hscreen, hindex, hpc, hsp, hdelay, hsound]
  rfl

theorem wellFormed_iff : p.WellFormed ↔ ∃ m : Machine, p = m.plain := by
  constructor
  · exact exists_of_wellFormed
  · rintro ⟨m, rfl⟩
    exact m.wellFormed_plain

end Plain

end Chip8
