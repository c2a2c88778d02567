/-
Blocks of memory. A block lies in a window of addresses, which goes on at the
bottom behind the top. What is read off a block depends on the bytes in its
window alone. Writing a block leaves every byte outside its window as it was,
and what is in the window afterwards has nothing to do with what was there. A
loaded program fills the window from `$200` on.
-/
import Chip8.Memory

namespace Chip8

theorem ofInt_toNat {v w : Nat} (a : BitVec w) : BitVec.ofInt v a.toNat = a.setWidth v := by
  rw [BitVec.ofInt_natCast, BitVec.ofNat_toNat]

/-! ## Windows -/

namespace Address

/-- So many addresses from one on. -/
def window (first : Address) (count : Nat) : List Address :=
  (List.range count).map fun k => first + BitVec.ofNat 12 k

theorem mem_window {a first : Address} {count : Nat} :
    a ∈ window first count ↔ ∃ k < count, a = first + BitVec.ofNat 12 k := by
  simp [window, eq_comm]

theorem toNat_add_ofNat (a : Address) (n : Nat) :
    (a + BitVec.ofNat 12 n).toNat = (a.toNat + n) % 4096 := by
  rw [BitVec.toNat_add, BitVec.toNat_ofNat, Nat.add_mod_mod]

/-- The addresses of a window as numbers. -/
theorem mem_window_iff_toNat {a first : Address} {count : Nat} :
    a ∈ window first count ↔ ∃ k < count, a.toNat = (first.toNat + k) % 4096 := by
  have hk : ∀ k, a = first + BitVec.ofNat 12 k ↔ a.toNat = (first.toNat + k) % 4096 := by
    intro k
    rw [← BitVec.toNat_inj, toNat_add_ofNat]
  simp only [mem_window, hk]

theorem window_succ (first : Address) (count : Nat) :
    window first (count + 1) = first :: window (first + 1) count := by
  have hzero : first + BitVec.ofNat 12 0 = first := BitVec.add_zero first
  have hstep : ∀ k : Nat, first + BitVec.ofNat 12 (k + 1) = first + 1 + BitVec.ofNat 12 k := by
    intro k
    rw [Nat.add_comm k 1, BitVec.ofNat_add, ← BitVec.add_assoc]
    rfl
  rw [window, List.range_succ_eq_map, List.map_cons, List.map_map, hzero]
  exact congrArg (first :: ·) (List.map_congr_left fun k _ => hstep k)

theorem ofInt_add_natCast (place : Int) (k : Nat) :
    BitVec.ofInt 12 (place + k) = BitVec.ofInt 12 place + BitVec.ofNat 12 k := by
  rw [BitVec.ofInt_add, BitVec.ofInt_natCast]

end Address

namespace Memory

open Address (window)

variable {M N : Memory} {place : Int} {a : Address}

/-! ## Reading -/

theorem readBytes_congr {count : Int}
    (h : ∀ a ∈ window (BitVec.ofInt 12 place) count.toNat, N.get a = M.get a) :
    N.readBytes place count = M.readBytes place count := by
  refine List.map_congr_left fun k hk => ?_
  unfold read
  rw [Address.ofInt_add_natCast]
  exact h _ (Address.mem_window.2 ⟨k, List.mem_range.1 hk, rfl⟩)

theorem readWord_congr (h : ∀ a ∈ window (BitVec.ofInt 12 place) 2, N.get a = M.get a) :
    N.readWord place = M.readWord place := by
  have hhi : N.read place = M.read place :=
    h _ (Address.mem_window.2 ⟨0, by omega, by simp⟩)
  have hlo : N.read (place + 1) = M.read (place + 1) :=
    h _ (Address.mem_window.2 ⟨1, by omega, Address.ofInt_add_natCast place 1⟩)
  rw [readWord, readWord, hhi, hlo]

/-! ## Writing -/

@[simp] theorem programSize_writeBytes (M : Memory) (place : Int) (data : List Byte) :
    (M.writeBytes place data).programSize = M.programSize := by
  induction data generalizing M place with
  | nil => rfl
  | cons b rest ih => exact ih _ _

/-- Outside its window a block that is written changes nothing. -/
theorem get_writeBytes_of_not_mem {data : List Byte}
    (h : a ∉ window (BitVec.ofInt 12 place) data.length) :
    (M.writeBytes place data).get a = M.get a := by
  induction data generalizing M place with
  | nil => rfl
  | cons b rest ih =>
    rw [List.length_cons, Address.window_succ, List.mem_cons, not_or] at h
    obtain ⟨hne, hrest⟩ := h
    have hplace : BitVec.ofInt 12 (place + 1) = BitVec.ofInt 12 place + 1 :=
      Address.ofInt_add_natCast place 1
    rw [writeBytes, ih (hplace ▸ hrest), get_set, if_neg (Ne.symm hne)]

/-- A byte is the same in two memories after the same block has been written to
both, if it is in the block's window or was the same before. -/
theorem get_writeBytes_congr {data : List Byte}
    (h : a ∈ window (BitVec.ofInt 12 place) data.length ∨ N.get a = M.get a) :
    (N.writeBytes place data).get a = (M.writeBytes place data).get a := by
  induction data generalizing M N place with
  | nil => exact h.resolve_left (by simp [window])
  | cons b rest ih =>
    rw [List.length_cons, Address.window_succ, List.mem_cons] at h
    have hplace : BitVec.ofInt 12 (place + 1) = BitVec.ofInt 12 place + 1 :=
      Address.ofInt_add_natCast place 1
    refine ih ?_
    rw [hplace, get_set, get_set]
    rcases h with (rfl | hmem) | heq
    · exact .inr (by rw [if_pos rfl, if_pos rfl])
    · exact .inl hmem
    · exact .inr (by rw [heq])

/-- Where a block is written depends on the place modulo 4096. -/
theorem writeBytes_congr {place place' : Int} (h : BitVec.ofInt 12 place = BitVec.ofInt 12 place')
    (M : Memory) (data : List Byte) : M.writeBytes place data = M.writeBytes place' data := by
  induction data generalizing M place place' with
  | nil => rfl
  | cons b rest ih =>
    have hnext : BitVec.ofInt 12 (place + 1) = BitVec.ofInt 12 (place' + 1) := by
      rw [BitVec.ofInt_add, BitVec.ofInt_add, h]
    rw [writeBytes, writeBytes, h, ih hnext]

theorem writeBytes_append (M : Memory) (place : Int) (data rest : List Byte) :
    M.writeBytes place (data ++ rest) =
      (M.writeBytes place data).writeBytes (place + data.length) rest := by
  induction data generalizing M place with
  | nil => rw [List.nil_append, List.length_nil, Int.natCast_zero, Int.add_zero, writeBytes]
  | cons b data ih =>
    have hplace : place + ((b :: data).length : Int) = place + 1 + data.length := by
      rw [List.length_cons]
      omega
    rw [List.cons_append, writeBytes, writeBytes, ih, hplace]

/-- A byte that no later one overwrites is there after a block has been written. -/
theorem read_writeBytes_of_last {data : List Byte} {k : Nat} (hk : k < data.length)
    (hlast : ∀ j, k < j → j < data.length →
      BitVec.ofInt 12 (place + j) ≠ BitVec.ofInt 12 (place + k)) :
    (M.writeBytes place data).read (place + k) = data[k] := by
  induction data generalizing M place k with
  | nil => cases hk
  | cons b rest ih =>
    have hplace : ∀ j : Nat, place + ((j + 1 : Nat) : Int) = place + 1 + j := by
      intro j
      omega
    cases k with
    | zero =>
      have hfree : BitVec.ofInt 12 place ∉ window (BitVec.ofInt 12 (place + 1)) rest.length := by
        intro hmem
        obtain ⟨j, hj, heq⟩ := Address.mem_window.1 hmem
        have hne := hlast (j + 1) (by omega) (Nat.succ_lt_succ hj)
        rw [hplace, Address.ofInt_add_natCast, Int.natCast_zero, Int.add_zero] at hne
        exact hne heq.symm
      rw [writeBytes, Int.natCast_zero, Int.add_zero, read, get_writeBytes_of_not_mem hfree,
        get_set, if_pos rfl, List.getElem_cons_zero]
    | succ k =>
      have hrest : ∀ j, k < j → j < rest.length →
          BitVec.ofInt 12 (place + 1 + j) ≠ BitVec.ofInt 12 (place + 1 + k) := by
        intro j hkj hj
        have hne := hlast (j + 1) (Nat.succ_lt_succ hkj) (Nat.succ_lt_succ hj)
        rwa [hplace, hplace] at hne
      rw [writeBytes, hplace, List.getElem_cons_succ]
      exact ih (Nat.lt_of_succ_lt_succ hk) hrest

/-- A block that fits is there after it has been written. -/
theorem read_writeBytes {data : List Byte} (hsize : data.length ≤ 4096) {k : Nat}
    (hk : k < data.length) : (M.writeBytes place data).read (place + k) = data[k] := by
  refine read_writeBytes_of_last hk fun j hkj hj heq => ?_
  have hnat := congrArg BitVec.toNat heq
  rw [BitVec.toNat_ofInt, BitVec.toNat_ofInt] at hnat
  omega

/-- A word is there after its bytes have been written. -/
theorem readWord_writeBytes (M : Memory) (place : Int) (hi lo : Byte) :
    (M.writeBytes place [hi, lo]).readWord place = Word.ofBytes hi lo := by
  have hsize : [hi, lo].length ≤ 4096 := Nat.le_of_ble_eq_true rfl
  have hhi : (M.writeBytes place [hi, lo]).read (place + (0 : Nat)) = hi :=
    read_writeBytes hsize Nat.zero_lt_two
  have hlo : (M.writeBytes place [hi, lo]).read (place + (1 : Nat)) = lo :=
    read_writeBytes hsize Nat.one_lt_two
  rw [Int.natCast_zero, Int.add_zero] at hhi
  rw [readWord, hhi]
  exact congrArg (Word.ofBytes hi) hlo

/-! ## Loading -/

theorem load_eq {program : List Byte} (h : program.length ≤ 0xE00) :
    load program = .ok ⟨Vector.ofFn fun place => initial Font.rows.toArray program.toArray place,
      program.length⟩ := by
  have hlimit : ¬ programLimit < program.length := by
    unfold programLimit
    omega
  exact if_neg hlimit

/-- A program that is not too long lies in memory from `$200` on. -/
theorem load_spec {program : List Byte} (h : program.length ≤ 0xE00) :
    ∃ M, load program = .ok M ∧ ∀ (offset : Nat) (b : Byte), program[offset]? = some b →
      M.read ((0x200 + offset : Nat) : Int) = b := by
  refine ⟨_, load_eq h, fun offset b hb => ?_⟩
  obtain ⟨hoffset, -⟩ := List.getElem?_eq_some_iff.1 hb
  have hplace : (BitVec.ofInt 12 ((0x200 + offset : Nat) : Int)).toNat = 0x200 + offset := by
    rw [BitVec.ofInt_natCast, BitVec.toNat_ofNat]
    omega
  have hafter : ¬ 0x200 + offset < 0x200 := by omega
  rw [read, get, Fin.getElem_fin, Vector.getElem_ofFn, BitVec.val_toFin, hplace, initial,
    programStart, if_neg hafter, Nat.add_sub_cancel_left, List.getElem?_toArray, hb,
    Option.getD_some]

end Memory
end Chip8
