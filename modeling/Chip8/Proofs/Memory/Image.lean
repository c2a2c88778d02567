/-
The image of a program, from its file to the words that are fetched. A program
that is not too long stands between the font below it and zeros, and every byte
has its one place: neither the font nor the program, which replace parts of a
list of zeros, changes the length of that list.
-/
import Chip8.Proofs.FileTree
import Chip8.Proofs.Plain.Operation

namespace Chip8
namespace Memory

variable {program : List Byte} {M : Memory}

/-! ## Bytes -/

/-- All bytes of a memory with nothing in it but the font and a program. -/
structure LaidOut (data program : List Byte) : Prop where
  size : data.length = 4096
  font : ∀ a < 80, data[a]? = Font.rows[a]?
  loaded : ∀ k < program.length, data[0x200 + k]? = program[k]?
  zero : ∀ a < 4096, 80 ≤ a → a < 0x200 ∨ 0x200 + program.length ≤ a → data[a]? = some 0

theorem load_of_lt (h : 0xE00 < program.length) :
    load program = .error { cause := .programTooLarge program.length 0xE00 } :=
  if_pos h

theorem load_eq_error_iff {f : Fault} : load program = .error f ↔
    0xE00 < program.length ∧ f = { cause := .programTooLarge program.length 0xE00 } := by
  rcases Nat.lt_or_ge 0xE00 program.length with h | h
  · simp [load_of_lt h, h, eq_comm]
  · have : ¬ 0xE00 < program.length := Nat.not_lt.2 h
    simp [load_eq h, this]

theorem getElem?_dump (h : program.length ≤ 0xE00) (hload : load program = .ok M) {a : Nat}
    (ha : a < 4096) : M.dump[a]? = some (initial Font.rows.toArray program.toArray a) := by
  obtain rfl := Except.ok.inj (hload.symm.trans (load_eq h))
  rw [dump, Vector.getElem?_toList, Vector.getElem?_ofFn, dif_pos ha]

theorem laidOut (h : program.length ≤ 0xE00) (hload : load program = .ok M) :
    LaidOut M.dump program := by
  have hfont : Font.rows.length = 80 := by decide
  refine ⟨Vector.length_toList, fun a ha => ?_, fun k hk => ?_, fun a ha hfree hafter => ?_⟩
  · have hbelow : a < programStart := by
      unfold programStart
      omega
    have hrow : a < Font.rows.length := hfont ▸ ha
    rw [getElem?_dump h hload (by omega), initial, if_pos hbelow, List.getElem?_toArray,
      List.getElem?_eq_getElem hrow, Option.getD_some]
  · have hbehind : ¬ 0x200 + k < programStart := by
      unfold programStart
      omega
    rw [getElem?_dump h hload (by omega), initial, if_neg hbehind, programStart,
      Nat.add_sub_cancel_left, List.getElem?_toArray, List.getElem?_eq_getElem hk, Option.getD_some]
  · rw [getElem?_dump h hload ha, initial]
    unfold programStart
    split
    next hbelow =>
      have hnone : Font.rows[a]? = none := List.getElem?_eq_none (by omega)
      rw [List.getElem?_toArray, hnone, Option.getD_none]
    next hbehind =>
      have hnone : program[a - 0x200]? = none := List.getElem?_eq_none (by omega)
      rw [List.getElem?_toArray, hnone, Option.getD_none]

/-- Laying the font and the program over zeros, part by part, makes that image. -/
theorem image_eq_dump (h : program.length ≤ 0xE00) (hload : load program = .ok M) :
    Plain.image 4096 0x200 Font.rows program = M.dump.map fun b => (b.toNat : Int) := by
  obtain rfl := Except.ok.inj (hload.symm.trans (load_eq h))
  rw [Plain.image_eq (by decide) (by omega), dump, Plain.numbers]
  simp only [initial, programStart, List.getElem?_toArray]

theorem getElem?_dump_read (M : Memory) {a : Nat} (ha : a < 4096) : M.dump[a]? = some (M.read a) := by
  have hplace : (BitVec.ofInt 12 (a : Int)).toNat = a := by
    rw [BitVec.ofInt_natCast, BitVec.toNat_ofNat]
    omega
  have hbyte : M.read a = M.bytes[a] := by
    simp only [read, get, Fin.getElem_fin, BitVec.val_toFin, hplace]
  rw [hbyte, dump, Vector.getElem?_toList, Vector.getElem?_eq_getElem ha]

end Memory

/-! ## Words -/

namespace Machine

variable {program : List Byte} {dialect : Dialect} {clock : Supply Float} {random : Supply Byte}

/-- A loaded machine is at the start of its program; each byte of the program
comes first in the word at its place, and second in the word before. -/
structure HoldsProgram (m : Machine) (program : List Byte) : Prop where
  pc : m.pc = 0x200
  bytes : m.memory.readBytes 0x200 program.length = program
  word : ∀ (k : Nat) hi, program[k]? = some hi → ∃ lo,
    (m.setPc (0x200 + k)).fetch = Word.ofBytes hi lo ∧ ∀ next, program[k + 1]? = some next → lo = next

theorem exists_load (h : program.length ≤ 0xE00) (dialect : Dialect) (clock : Supply Float)
    (random : Supply Byte) :
    ∃ m, load program dialect clock random = .ok m ∧ m.HoldsProgram program := by
  obtain ⟨M, hload, hread⟩ := Memory.load_spec h
  refine ⟨_, by rw [load, hload]; rfl, rfl, ?_, fun k hi hhi => ?_⟩
  · refine List.ext_getElem (by simp [Memory.readBytes]) fun k _ hk => ?_
    simp only [Memory.readBytes, List.getElem_map, List.getElem_range]
    exact hread k _ (List.getElem?_eq_getElem hk)
  · have hk : k < program.length := (List.getElem?_eq_some_iff.1 hhi).1
    have hpc : (BitVec.ofInt 16 (0x200 + k)).toNat = 0x200 + k := by
      have hplace : (0x200 + k : Int) = ((0x200 + k : Nat) : Int) := by omega
      rw [hplace, BitVec.ofInt_natCast, BitVec.toNat_ofNat]
      omega
    refine ⟨M.read (0x200 + k + 1), ?_, fun next hnext => hread (k + 1) next hnext⟩
    show M.readWord (BitVec.ofInt 16 (0x200 + k)).toNat = _
    rw [Memory.readWord, hpc, hread k hi hhi]
    rfl

end Machine

namespace Memory

/-- **A program's image, from its file to the words fetched.** A program is refused
exactly when it is too long, with its length and the limit. Any other stands in
memory between the font and zeros, every byte in its place, and that is the list
that the font and the program leave of zeros. A file that can be read is loaded or
refused in the same way; one that is loaded makes a machine, which fetches its bytes. -/
theorem program_isLaidOut :
    (∀ (program : List Byte) (f : Fault), load program = .error f ↔
      0xE00 < program.length ∧ f = { cause := .programTooLarge program.length 0xE00 }) ∧
    (∀ program : List Byte, program.length ≤ 0xE00 → ∃ M, load program = .ok M ∧
      LaidOut M.dump program ∧ (∀ a : Nat, a < 4096 → M.dump[a]? = some (M.read a)) ∧
      M.programSize = program.length ∧
      Plain.image 4096 0x200 Font.rows program = M.dump.map fun b => (b.toNat : Int)) ∧
    (∀ (files : FileTree) (path : Path) (data : List Byte), files.read path = .ok data →
      (∀ program, files.loadProgram path = .ok program ↔ program = data ∧ data.length ≤ 0xE00) ∧
      ∀ e, files.loadProgram path = .error e ↔
        0xE00 < data.length ∧ e = .refused { cause := .programTooLarge data.length 0xE00 }) ∧
    ∀ (files : FileTree) (path : Path) (program : List Byte), files.loadProgram path = .ok program →
      files.read path = .ok program ∧ ∀ dialect clock random, ∃ m,
        Machine.load program dialect clock random = .ok m ∧ m.HoldsProgram program := by
  refine ⟨fun program f => load_eq_error_iff, fun program h => ?_, fun files path data hread => ?_,
    fun files path program hload => ?_⟩
  · have hload := load_eq h
    exact ⟨_, hload, laidOut h hload, fun a ha => getElem?_dump_read _ ha, rfl, image_eq_dump h hload⟩
  · refine ⟨fun program => ?_, fun e => FileTree.loadProgram_eq_error_iff hread⟩
    rw [FileTree.loadProgram_eq_ok_iff, hread, Except.ok.injEq]
    constructor
    · rintro ⟨rfl, hlength⟩
      exact ⟨rfl, hlength⟩
    · rintro ⟨rfl, hlength⟩
      exact ⟨rfl, hlength⟩
  · obtain ⟨hread, hlength⟩ := FileTree.loadProgram_eq_ok_iff.1 hload
    exact ⟨hread, Machine.exists_load hlength⟩

/-- A program of three bytes. -/
def triple : List Byte := [0xA2, 0x2A, 0xFF]

/-- Nothing but that program. -/
def shelf : FileTree := { nodes := [(["a.ch8"], .file triple)] }

theorem triple_isLaidOut :
    shelf.read (.ofString "a.ch8") = .ok triple ∧ shelf.loadProgram (.ofString "a.ch8") = .ok triple ∧
    (∃ M, load triple = .ok M ∧ M.dump[0x4F]? = some 0x80 ∧ M.dump[0x202]? = some 0xFF ∧
      M.dump[0x203]? = some 0) ∧
    ∃ m, Machine.load triple .standard (.constant 0) (.constant 0) = .ok m ∧
      (m.setPc (0x200 + (1 : Nat))).fetch = Word.ofBytes 0x2A 0xFF := by
  obtain ⟨-, himage, hfile, hmachine⟩ := program_isLaidOut
  have hread : shelf.read (.ofString "a.ch8") = .ok triple := by decide +kernel
  have hload := ((hfile _ _ _ hread).1 triple).2 ⟨rfl, by decide⟩
  obtain ⟨M, hM, hdata, -⟩ := himage triple (by decide)
  obtain ⟨-, hmachine⟩ := hmachine _ _ _ hload
  obtain ⟨m, hm, hprogram⟩ := hmachine .standard (.constant 0) (.constant 0)
  obtain ⟨lo, hfetch, hlo⟩ := hprogram.word 1 0x2A rfl
  cases hlo 0xFF rfl
  exact ⟨hread, hload, ⟨M, hM, hdata.font 0x4F (by decide), hdata.loaded 2 (by decide),
    hdata.zero 0x203 (by decide) (by decide) (.inr (by decide))⟩, m, hm, hfetch⟩

end Memory
end Chip8
