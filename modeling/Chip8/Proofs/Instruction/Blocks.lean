/-
Blocks of registers in memory. Where blocks move the index, stores lay them end
to end from the index on, around the top of memory if need be, and loads from
the same place take them up again in the same order, so together they are a
stream of bytes, written and read. Where blocks do not move the index, a load
takes up what the store before it has laid down.

Instructions are carried out by themselves here: stores may well overwrite the
program that they are from.
-/
import Chip8.Proofs.Effect
import Mathlib.Algebra.GroupWithZero.Nat

namespace Chip8

/-- A block of registers to store: what the registers hold, and the last that is
stored. -/
structure Block where
  contents : RegisterFile
  last : Register

namespace Block

/-- The bytes of a block, `V0` first. -/
def bytes (b : Block) : List Byte := b.contents.block b.last

/-- How many bytes the blocks up to the given registers take. -/
def span (xs : List Register) : Nat := (xs.map fun x => x.toNat + 1).sum

end Block

/-! ## Registers of a block -/

namespace RegisterFile

variable {f : RegisterFile} {x r : Register}

theorem getElem?_block (h : r ≤ x) : (f.block x)[r.toNat]? = some (f.read r) := by
  have hr : r.toNat < x.toNat + 1 := Nat.lt_succ_of_le (BitVec.le_def.1 h)
  have hlt := r.isLt
  rw [block, List.getElem?_take_of_lt hr, toList, Vector.getElem?_toList,
    Vector.getElem?_eq_getElem hlt]
  rfl

/-- Loading a block of memory sets its registers and leaves the others. -/
theorem read_loadBlock_readBytes (f : RegisterFile) (M : Memory) (place : Int) (x r : Register) :
    (f.loadBlock (M.readBytes place (x.toNat + 1))).read r =
      if r ≤ x then M.read (place + r.toNat) else f.read r := by
  have hcount : ((x.toNat : Int) + 1).toNat = x.toNat + 1 := by omega
  rw [read_loadBlock, Memory.readBytes, hcount, List.getElem?_map]
  by_cases h : r ≤ x
  · have hr : r.toNat < x.toNat + 1 := Nat.lt_succ_of_le (BitVec.le_def.1 h)
    rw [if_pos h, List.getElem?_range hr]
    rfl
  · have hr : x.toNat + 1 ≤ r.toNat := Nat.lt_of_not_le (mt BitVec.le_def.2 h)
    rw [if_neg h, List.getElem?_eq_none (by simpa using hr)]
    rfl

end RegisterFile

/-! ## Blocks in memory -/

namespace Block

theorem length_bytes (b : Block) : b.bytes.length = b.last.toNat + 1 :=
  b.contents.length_block b.last

@[simp] theorem span_cons (x : Register) (xs : List Register) :
    span (x :: xs) = x.toNat + 1 + span xs := rfl

/-- An address that passes a block and then others passes them all. -/
theorem add_ofNat_span_cons (a : Address) (x : Register) (xs : List Register) :
    a + BitVec.ofNat 12 (x.toNat + 1) + BitVec.ofNat 12 (span xs) =
      a + BitVec.ofNat 12 (span (x :: xs)) := by
  rw [span_cons, BitVec.ofNat_add (x.toNat + 1) (span xs), BitVec.add_assoc]

theorem length_flatMap_bytes (bs : List Block) :
    (bs.flatMap bytes).length = span (bs.map last) := by
  induction bs with
  | nil => rfl
  | cons b bs ih =>
    rw [List.flatMap_cons, List.length_append, length_bytes, ih, List.map_cons, span_cons]

end Block

open Block (span)

/-- Blocks lie in memory end to end from an address on, and outside of them it
is as it was before. -/
structure Memory.Gains (M : Memory) (a : Address) (bs : List Block) (M' : Memory) : Prop where
  inside : ∀ before b later, bs = before ++ b :: later → ∀ r ≤ b.last,
    M'.read (a.toNat + span (before.map Block.last) + r.toNat) = b.contents.read r
  outside : ∀ c : Address, (∀ k < span (bs.map Block.last), c.toNat ≠ (a.toNat + k) % 4096) →
    M'.get c = M.get c
  programSize : M'.programSize = M.programSize

/-- Blocks that are written in one go lie end to end, if they all fit. -/
theorem Memory.gains_writeBytes (M : Memory) (a : Address) {bs : List Block}
    (h : span (bs.map Block.last) ≤ 4096) :
    M.Gains a bs (M.writeBytes a.toNat (bs.flatMap Block.bytes)) where
  inside := by
    rintro before b later rfl r hr
    have hplace : (a.toNat : Int) + span (before.map Block.last) + r.toNat =
        a.toNat + ((span (before.map Block.last) + r.toNat : Nat) : Int) := by omega
    have hbyte : ((before ++ b :: later).flatMap Block.bytes)[span (before.map Block.last) +
        r.toNat]? = some (b.contents.read r) := by
      rw [List.flatMap_append, List.flatMap_cons, ← Block.length_flatMap_bytes,
        List.getElem?_append_right (Nat.le_add_right _ _), Nat.add_sub_cancel_left,
        List.getElem?_append_left, Block.bytes, RegisterFile.getElem?_block hr]
      rw [Block.length_bytes]
      exact Nat.lt_succ_of_le (BitVec.le_def.1 hr)
    obtain ⟨hk, hget⟩ := List.getElem?_eq_some_iff.1 hbyte
    rw [hplace, Memory.read_writeBytes (by rwa [Block.length_flatMap_bytes]) hk, hget]
  outside c hc := by
    refine Memory.get_writeBytes_of_not_mem fun hmem => ?_
    rw [ofInt_toNat, BitVec.setWidth_eq, Block.length_flatMap_bytes] at hmem
    obtain ⟨k, hk, heq⟩ := Address.mem_window_iff_toNat.1 hmem
    exact hc k hk heq
  programSize := Memory.programSize_writeBytes ..

namespace Machine

variable {m : Machine} {address : Word} {press : Option Key}

theorem execute_storeRegisters (m : Machine) (x : Register) (address : Word) (press : Option Key) :
    m.execute (.storeRegisters x) address press = .ok { m with
      memory := m.memory.writeBytes m.index.toNat (m.registers.block x)
      index := if m.dialect.blocksMoveIndex then m.index + BitVec.ofNat 12 (x.toNat + 1)
        else m.index } := by
  simp only [execute, passBlock_eq]
  rfl

theorem execute_loadRegisters (m : Machine) (x : Register) (address : Word) (press : Option Key) :
    m.execute (.loadRegisters x) address press = .ok { m with
      registers := m.registers.loadBlock (m.memory.readBytes m.index.toNat (x.toNat + 1))
      index := if m.dialect.blocksMoveIndex then m.index + BitVec.ofNat 12 (x.toNat + 1)
        else m.index } := by
  simp only [execute, passBlock_eq]

theorem index_eq_of_execute {m' : Machine} {i : Instruction}
    (h : m.execute i address press = .ok m') (hi : i.movesIndex m.dialect = false) :
    m'.index = m.index :=
  (execute_frame h).index.resolve_left (by simp [hi])

/-! ## Streams of blocks -/

/-- Stores blocks one after another, the registers being filled with the contents
of each before it is stored. -/
def storeAll (m : Machine) (address : Word) (press : Option Key) (bs : List Block) :
    Except Fault.Cause Machine :=
  bs.foldlM (fun m b =>
    { m with registers := b.contents }.execute (.storeRegisters b.last) address press) m

/-- Loads blocks up to the given registers one after another. -/
def loadAll (m : Machine) (address : Word) (press : Option Key) (xs : List Register) :
    Except Fault.Cause Machine :=
  xs.foldlM (fun m x => m.execute (.loadRegisters x) address press) m

theorem storeAll_cons (hm : m.dialect.blocksMoveIndex = true) (b : Block) (bs : List Block) :
    m.storeAll address press (b :: bs) = { m with
      memory := m.memory.writeBytes m.index.toNat b.bytes
      registers := b.contents
      index := m.index + BitVec.ofNat 12 (b.last.toNat + 1) }.storeAll address press bs := by
  rw [storeAll, List.foldlM_cons, execute_storeRegisters, if_pos hm]
  rfl

theorem loadAll_cons (hm : m.dialect.blocksMoveIndex = true) (x : Register) (xs : List Register) :
    m.loadAll address press (x :: xs) = { m with
      registers := m.registers.loadBlock (m.memory.readBytes m.index.toNat (x.toNat + 1))
      index := m.index + BitVec.ofNat 12 (x.toNat + 1) }.loadAll address press xs := by
  rw [loadAll, List.foldlM_cons, execute_loadRegisters, if_pos hm]
  rfl

/-- Storing blocks is writing all their bytes in one go and passing them. -/
theorem exists_storeAll (hm : m.dialect.blocksMoveIndex = true) (bs : List Block) :
    ∃ registers, m.storeAll address press bs = .ok { m with
      memory := m.memory.writeBytes m.index.toNat (bs.flatMap Block.bytes)
      registers
      index := m.index + BitVec.ofNat 12 (span (bs.map Block.last)) } := by
  induction bs generalizing m with
  | nil => exact ⟨m.registers, by simp [storeAll, span, Memory.writeBytes]; rfl⟩
  | cons b bs ih =>
    let passed := m.index + BitVec.ofNat 12 (b.last.toNat + 1)
    let stored : Machine := { m with
      memory := m.memory.writeBytes m.index.toNat b.bytes
      registers := b.contents
      index := passed }
    obtain ⟨registers, hrest⟩ := @ih stored hm
    -- The index is back at the bottom where the place in the block goes on past
    -- the top, so the two agree as addresses only.
    have hplace : BitVec.ofInt 12 passed.toNat =
        BitVec.ofInt 12 (m.index.toNat + (b.bytes.length : Int)) := by
      rw [ofInt_toNat, BitVec.setWidth_eq, Address.ofInt_add_natCast, ofInt_toNat,
        BitVec.setWidth_eq, Block.length_bytes]
    have hmemory : stored.memory.writeBytes passed.toNat (bs.flatMap Block.bytes) =
        m.memory.writeBytes m.index.toNat ((b :: bs).flatMap Block.bytes) := by
      rw [List.flatMap_cons, Memory.writeBytes_append, Memory.writeBytes_congr hplace]
    have hindex : passed + BitVec.ofNat 12 (span (bs.map Block.last)) =
        m.index + BitVec.ofNat 12 (span ((b :: bs).map Block.last)) :=
      Block.add_ofNat_span_cons ..
    rw [storeAll_cons hm, ← hindex, ← hmemory]
    exact ⟨registers, hrest⟩

/-- Loading blocks passes them and sets no more than registers. -/
theorem exists_loadAll (hm : m.dialect.blocksMoveIndex = true) (xs : List Register) :
    ∃ registers, m.loadAll address press xs =
      .ok { m with registers, index := m.index + BitVec.ofNat 12 (span xs) } := by
  induction xs generalizing m with
  | nil => exact ⟨m.registers, by simp [loadAll, span]; rfl⟩
  | cons x xs ih =>
    rw [loadAll_cons hm, ← Block.add_ofNat_span_cons]
    exact @ih { m with
      registers := m.registers.loadBlock (m.memory.readBytes m.index.toNat (x.toNat + 1))
      index := m.index + BitVec.ofNat 12 (x.toNat + 1) } hm

/-! ## What was stored is loaded -/

/-- What loading a block that was stored leaves: its registers are those of the
block, and nothing else but the index is changed. -/
structure Recovers (m m' : Machine) (b : Block) : Prop where
  block : ∀ r ≤ b.last, m'.register r = b.contents.read r
  above : ∀ r, b.last < r → m'.register r = m.register r
  rest : m' = { m with registers := m'.registers, index := m'.index }

/-- The stream of loads that takes up a stream of blocks. Every load of it
recovers the block of its turn, and the last leaves the index behind them all. -/
structure Reloads (m : Machine) (address : Word) (press : Option Key) (bs : List Block) : Prop where
  all : ∃ loaded, m.loadAll address press (bs.map Block.last) = .ok loaded ∧
    loaded.index.toNat = (m.index.toNat + span (bs.map Block.last)) % 4096 ∧
    loaded = { m with registers := loaded.registers, index := loaded.index }
  each : ∀ before b later, bs = before ++ b :: later → ∃ n n',
    m.loadAll address press (before.map Block.last) = .ok n ∧
    n.execute (.loadRegisters b.last) address press = .ok n' ∧ n.Recovers n' b

/-- A load recovers the block that the index stands before. -/
theorem exists_recovers {M : Memory} {a : Address} {before later : List Block} {b : Block}
    (h : M.Gains a (before ++ b :: later) m.memory)
    (hindex : m.index = a + BitVec.ofNat 12 (span (before.map Block.last))) :
    ∃ m', m.execute (.loadRegisters b.last) address press = .ok m' ∧ m.Recovers m' b := by
  refine ⟨_, execute_loadRegisters m b.last address press, ?_, fun r hr => ?_, rfl⟩
  · intro r hr
    have hplace : BitVec.ofInt 12 (m.index.toNat + (r.toNat : Int)) =
        BitVec.ofInt 12 (a.toNat + span (before.map Block.last) + r.toNat) := by
      simp only [Address.ofInt_add_natCast, ofInt_toNat, BitVec.setWidth_eq, hindex]
    rw [register, RegisterFile.read_loadBlock_readBytes, if_pos hr, Memory.read, hplace]
    exact h.inside before b later rfl r hr
  · rw [register, RegisterFile.read_loadBlock_readBytes, if_neg (BitVec.not_le.2 hr)]
    rfl

theorem reloads {M : Memory} {bs : List Block} (hm : m.dialect.blocksMoveIndex = true)
    (h : M.Gains m.index bs m.memory) : m.Reloads address press bs where
  all := by
    obtain ⟨registers, hall⟩ := exists_loadAll hm (bs.map Block.last)
    exact ⟨_, hall, Address.toNat_add_ofNat .., rfl⟩
  each := by
    rintro before b later rfl
    obtain ⟨registers, hbefore⟩ := exists_loadAll hm (before.map Block.last)
    obtain ⟨m', hload, hrecovers⟩ := exists_recovers (m := { m with
      registers, index := m.index + BitVec.ofNat 12 (span (before.map Block.last)) }) h rfl
    exact ⟨_, m', hbefore, hload, hrecovers⟩

/-- **Blocks of registers are streams.** Where blocks move the index, blocks that
all fit are laid end to end from the index on and no other byte is changed; from
there the loads recover them one after another, whatever the registers hold.
Where blocks do not move the index, the load of a block recovers it once it was
stored. -/
theorem blocks_areStreams (m : Machine) (address : Word) (press : Option Key) :
    (m.dialect.blocksMoveIndex = true → ∀ bs : List Block, span (bs.map Block.last) ≤ 4096 →
      ∃ stored, m.storeAll address press bs = .ok stored ∧
        m.memory.Gains m.index bs stored.memory ∧
        stored.index.toNat = (m.index.toNat + span (bs.map Block.last)) % 4096 ∧
        stored = { m with
          memory := stored.memory, registers := stored.registers, index := stored.index } ∧
        ∀ registers, { stored with registers, index := m.index }.Reloads address press bs) ∧
    (m.dialect.blocksMoveIndex = false → ∀ x : Register,
      (∃ loaded, m.execute (.loadRegisters x) address press = .ok loaded ∧
        loaded.index = m.index) ∧
      ∃ stored, m.execute (.storeRegisters x) address press = .ok stored ∧
        m.memory.Gains m.index [⟨m.registers, x⟩] stored.memory ∧ stored.index = m.index ∧
        ∀ registers, ∃ loaded,
          { stored with registers }.execute (.loadRegisters x) address press = .ok loaded ∧
          loaded.index = m.index ∧
          { stored with registers }.Recovers loaded ⟨m.registers, x⟩) := by
  refine ⟨fun hm bs hsize => ?_, fun hm x => ?_⟩
  · obtain ⟨registers, hstore⟩ := exists_storeAll hm bs
    have hgains := m.memory.gains_writeBytes m.index hsize
    exact ⟨_, hstore, hgains, Address.toNat_add_ofNat .., rfl, fun _ => reloads hm hgains⟩
  · let b : Block := ⟨m.registers, x⟩
    have hload := execute_loadRegisters m x address press
    have hstore : m.execute (.storeRegisters x) address press =
        .ok { m with memory := m.memory.writeBytes m.index.toNat ([b].flatMap Block.bytes) } := by
      rw [execute_storeRegisters, hm, List.flatMap_singleton]
      rfl
    have hsize : span ([b].map Block.last) ≤ 4096 := by
      have := x.isLt
      rw [← Block.length_flatMap_bytes, List.flatMap_singleton, Block.length_bytes]
      omega
    have hgains : m.memory.Gains m.index ([] ++ [b])
        (m.memory.writeBytes m.index.toNat ([b].flatMap Block.bytes)) :=
      m.memory.gains_writeBytes m.index hsize
    have hfirst : m.index = m.index + BitVec.ofNat 12 (span (([] : List Block).map Block.last)) :=
      (BitVec.add_zero m.index).symm
    refine ⟨⟨_, hload, index_eq_of_execute hload hm⟩, _, hstore, hgains, rfl,
      fun registers => ?_⟩
    obtain ⟨loaded, hagain, hrecovers⟩ := exists_recovers (m := { m with
      memory := m.memory.writeBytes m.index.toNat ([b].flatMap Block.bytes), registers })
      hgains hfirst
    have hindex := index_eq_of_execute hagain hm
    exact ⟨loaded, hagain, hindex, hrecovers⟩

/-- A machine whose index stands two below the top of memory. -/
def topmost : Machine := { trial [] with index := 0xFFE }

/-- Three registers that go around the top, and one behind them. -/
def aroundTop : List Block := [⟨RegisterFile.write {} 2 7, 2⟩, ⟨RegisterFile.write {} 0 9, 0⟩]

theorem topmost_areStreams :
    (∃ stored, topmost.storeAll 0x200 none aroundTop = .ok stored ∧
      topmost.memory.Gains 0xFFE aroundTop stored.memory ∧ stored.index.toNat = 2 ∧
      { stored with registers := {}, index := 0xFFE }.Reloads 0x200 none aroundTop) ∧
    ∃ stored, { topmost with dialect := .modern }.execute (.storeRegisters 2) 0x200 none =
        .ok stored ∧
      ∃ loaded, { stored with registers := {} }.execute (.loadRegisters 2) 0x200 none =
          .ok loaded ∧
        loaded.index = 0xFFE ∧
        { stored with registers := {} }.Recovers loaded ⟨topmost.registers, 2⟩ := by
  have hsize : span (aroundTop.map Block.last) ≤ 4096 := by decide
  obtain ⟨stored, hstore, hgains, hindex, -, hreloads⟩ :=
    (blocks_areStreams topmost 0x200 none).1 rfl aroundTop hsize
  obtain ⟨-, still, hstill, -, -, hloads⟩ :=
    (blocks_areStreams { topmost with dialect := .modern } 0x200 none).2 rfl 2
  obtain ⟨loaded, hload, hstays, hrecovers⟩ := hloads {}
  exact ⟨⟨stored, hstore, hgains, hindex, hreloads {}⟩,
    still, hstill, loaded, hload, hstays, hrecovers⟩

end Machine
end Chip8
