/-
Programs in files. A file that can be read is a program if it is not too long;
a longer one is refused with its length and the limit.
-/
import Chip8.FileTree

namespace Chip8.FileTree

variable {t : FileTree} {p : Path} {data program : List Byte}

theorem loadProgram_of_read (h : t.read p = .ok data) : t.loadProgram p =
    if 0xE00 < data.length then
      .error (.refused { cause := .programTooLarge data.length 0xE00 })
    else .ok data := by
  rw [loadProgram, h]
  rfl

theorem loadProgram_eq_ok_iff :
    t.loadProgram p = .ok program ↔ t.read p = .ok program ∧ program.length ≤ 0xE00 := by
  cases hread : t.read p with
  | ok data =>
    rw [loadProgram_of_read hread, Except.ok.injEq]
    constructor
    · intro h
      split at h
      · cases h
      · cases h
        exact ⟨rfl, by omega⟩
    · rintro ⟨rfl, hlength⟩
      exact if_neg (by omega)
  | error e =>
    have hnone : ∀ data, t.loadProgram p ≠ .ok data := by
      intro data
      rw [loadProgram, hread]
      cases e <;> nofun
    simp [hnone]

/-- A file that is too long is refused for that, and no other file is refused. -/
theorem loadProgram_eq_error_iff (h : t.read p = .ok data) {e : LoadError} :
    t.loadProgram p = .error e ↔
      0xE00 < data.length ∧ e = .refused { cause := .programTooLarge data.length 0xE00 } := by
  rw [loadProgram_of_read h]
  split
  next hlong => simp [hlong, eq_comm]
  next hshort => simp [hshort]

end Chip8.FileTree
