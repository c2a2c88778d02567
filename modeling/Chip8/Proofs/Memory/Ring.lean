/-
Memory as a ring. A place is any integer and stands for its remainder modulo
4096, so a block that is long enough runs over itself. What it leaves at a place
is its last byte to come by there (`visits`); where none comes by, the old byte
stays. Blocks that are read go around the ring in the same way.
-/
import Chip8.Proofs.Decoding
import Chip8.Proofs.Memory
import Mathlib.Order.Bounds.Defs

namespace Chip8

/-- Places that differ by whole rounds have the same address. -/
theorem Address.ofInt_eq_iff {place other : Int} :
    BitVec.ofInt 12 place = BitVec.ofInt 12 other ↔ place % 4096 = other % 4096 := by
  rw [← BitVec.toNat_inj, BitVec.toNat_ofInt, BitVec.toNat_ofInt]
  omega

namespace Memory

variable {M : Memory} {place other : Int}

theorem read_congr (h : place % 4096 = other % 4096) : M.read place = M.read other := by
  rw [read, read, Address.ofInt_eq_iff.2 h]

/-! ## Blocks that are written -/

/-- The positions in a block of `count` bytes from a place on at which it comes
by another place. -/
def visits (place : Int) (count : Nat) (other : Int) : Set Nat :=
  {j | j < count ∧ (place + j) % 4096 = other % 4096}

theorem exists_isGreatest_visits {count : Nat} (h : (visits place count other).Nonempty) :
    ∃ j, IsGreatest (visits place count other) j := by
  obtain ⟨j, hj, hplace⟩ := h
  -- so many bytes before the end of the block it comes by for the last time
  have hback : ((place + (count - 1) - other) % 4096).toNat ≤ count - 1 - j := by omega
  refine ⟨count - 1 - ((place + (count - 1) - other) % 4096).toNat, ⟨by omega, by omega⟩, ?_⟩
  intro k hk
  obtain ⟨hk, hplace⟩ := hk
  omega

theorem read_writeBytes_of_isGreatest {data : List Byte} {j : Nat}
    (h : IsGreatest (visits place data.length other) j) :
    data[j]? = some ((M.writeBytes place data).read other) := by
  obtain ⟨⟨hj, hplace⟩, hlast⟩ := h
  have hbyte : (M.writeBytes place data).read (place + j) = data[j] := by
    apply read_writeBytes_of_last hj
    intro k hjk hk heq
    have hvisit : k ∈ visits place data.length other :=
      ⟨hk, (Address.ofInt_eq_iff.1 heq).trans hplace⟩
    exact Nat.not_lt.2 (hlast hvisit) hjk
  rw [List.getElem?_eq_getElem hj, ← hbyte, read_congr hplace]

theorem read_writeBytes_of_not_visited {data : List Byte}
    (h : ¬ (visits place data.length other).Nonempty) :
    (M.writeBytes place data).read other = M.read other := by
  apply get_writeBytes_of_not_mem
  intro hmem
  obtain ⟨j, hj, heq⟩ := Address.mem_window.1 hmem
  rw [← Address.ofInt_add_natCast] at heq
  exact h ⟨j, hj, (Address.ofInt_eq_iff.1 heq).symm⟩

/-! ## Blocks that are read -/

@[simp] theorem length_readBytes (M : Memory) (place count : Int) :
    (M.readBytes place count).length = count.toNat := by
  simp [readBytes]

/-- A block that fits is read as it was written. -/
theorem readBytes_writeBytes {data : List Byte} (hsize : data.length ≤ 4096) :
    (M.writeBytes place data).readBytes place data.length = data := by
  apply List.ext_getElem
  · simp
  · intro k _ hk
    simp only [readBytes, List.getElem_map, List.getElem_range]
    exact read_writeBytes hsize hk

theorem readBytes_add {m n : Int} (hm : 0 ≤ m) (hn : 0 ≤ n) :
    M.readBytes place (m + n) = M.readBytes place m ++ M.readBytes (place + m) n := by
  have hsecond : ∀ k : Nat, place + (m.toNat + k : Nat) = place + m + k := by
    intro k
    omega
  simp only [readBytes, Int.toNat_add hm hn, List.range_add, List.map_append, List.map_map,
    Function.comp_def, hsecond]

/-- **The last byte to come by a place stays there.** After a block of any length
has been written from any place on, every place holds the byte of the last
position at which the block came by it, or its old byte if there is none. So a
block that fits is read back. Every count of bytes can be read, a negative one as
none; two counts are read one after the other; and a word is a byte and the next
one, also across the top. -/
theorem lastVisit_stays (M : Memory) :
    (∀ (place other : Int) (data : List Byte),
      ((visits place data.length other).Nonempty →
        ∃ j, IsGreatest (visits place data.length other) j ∧
          data[j]? = some ((M.writeBytes place data).read other)) ∧
      (¬ (visits place data.length other).Nonempty →
        (M.writeBytes place data).read other = M.read other)) ∧
    (∀ (place : Int) (data : List Byte), data.length ≤ 4096 →
      (M.writeBytes place data).readBytes place data.length = data) ∧
    (∀ place n : Int, ((M.readBytes place n).length : Int) = max n 0) ∧
    (∀ place m n : Int, 0 ≤ m → 0 ≤ n →
      M.readBytes place (m + n) = M.readBytes place m ++ M.readBytes (place + m) n) ∧
    ∀ place : Int, (M.readWord place).toNat =
      256 * (M.read place).toNat + (M.read (place + 1)).toNat := by
  refine ⟨?_, ?_, ?_, ?_, ?_⟩
  · intro place other data
    refine ⟨fun h => ?_, read_writeBytes_of_not_visited⟩
    obtain ⟨j, hj⟩ := exists_isGreatest_visits h
    exact ⟨j, hj, read_writeBytes_of_isGreatest hj⟩
  · intro place data hsize
    exact readBytes_writeBytes hsize
  · intro place n
    rw [length_readBytes]
    omega
  · intro place m n hm hn
    exact readBytes_add hm hn
  · intro place
    exact Word.toNat_ofBytes (M.read place) (M.read (place + 1))

/-- A block that goes around the ring once and comes by four places again. -/
def lapping : List Byte := List.replicate 4096 1 ++ [2, 3, 4, 5]

/-- From three places below the bottom on, over a memory of zeros. -/
theorem lapping_stays :
    (visits (-3) lapping.length 4093).Nonempty ∧
    ((⟨Vector.replicate 4096 0, 0⟩ : Memory).writeBytes (-3) lapping).read 4093 = 2 ∧
    ((⟨Vector.replicate 4096 0, 0⟩ : Memory).writeBytes 0xFFF [0xA2, 0x34]).readBytes 0xFFF 2 =
      [0xA2, 0x34] := by
  have hlength : lapping.length = 4100 := by
    rw [lapping, List.length_append, List.length_replicate]
    rfl
  have hfirst : 4096 ∈ visits (-3) lapping.length 4093 := ⟨by omega, by decide⟩
  obtain ⟨hwrite, hread, -⟩ := lastVisit_stays ⟨Vector.replicate 4096 0, 0⟩
  refine ⟨⟨4096, hfirst⟩, ?_, hread 0xFFF [0xA2, 0x34] (by decide)⟩
  obtain ⟨j, ⟨⟨hj, hplace⟩, hlast⟩, hbyte⟩ := (hwrite (-3) 4093 lapping).1 ⟨4096, hfirst⟩
  have hj : j = 4096 := by
    have := hlast hfirst
    omega
  have hlapping : lapping[4096]? = some 2 := by
    rw [lapping, List.getElem?_append_right (Nat.le_of_eq List.length_replicate),
      List.length_replicate]
    rfl
  rw [hj, hlapping, Option.some.injEq] at hbyte
  exact hbyte.symm

end Memory
end Chip8
