/-
A single entry, read at an offset of an image. Counted from the front, an offset
before the end gives an entry, and one at or behind the end is refused with its
number. An offset below zero counts from the end, and nothing is looked at
beforehand: an entry comes of it only where a word starts in the image and has
another byte behind it. Elsewhere reading fails for want of bytes, without a
word about the offset.
-/
import Chip8.Proofs.Listing.Partition

namespace Chip8

theorem Window.length_cut {α : Type} (xs : List α) (i j : Int) :
    (cut xs i j).length = min (place xs.length j) xs.length - place xs.length i := by
  rw [cut, List.length_drop, List.length_take]

namespace Listing

variable {image : List Byte} {offset : Int} (address : Int)

/-- The offset counts back from the end to a word of an image that has another
byte behind it. -/
def CountsBack (length : Nat) (offset : Int) : Prop := -length ≤ offset ∧ offset ≤ -3

/-- What is read at an offset: up to two bytes from where it points to. -/
structure Reads (image : List Byte) (address offset : Int) (e : Entry) : Prop where
  address : e.address = address
  bytes : e.bytes = (image.drop (if offset < 0 then image.length + offset else offset).toNat).take 2

/-! ## From the front -/

theorem exists_reads_of_front (h : 0 ≤ offset) (hin : offset < image.length) :
    ∃ e, entryAt image address offset = .ok e ∧ Reads image address offset e := by
  obtain ⟨k, rfl⟩ := Int.eq_ofNat_of_zero_le h
  have hplace : (if (k : Int) < 0 then image.length + (k : Int) else k).toNat = k := by
    rw [if_neg (by omega), Int.toNat_natCast]
  match hdrop : image.drop k with
  | [] => exact absurd (List.drop_eq_nil_iff.1 hdrop) (by omega)
  | [b] => exact ⟨_, entryAt_of_drop_trailing address hdrop, rfl, by rw [hplace, hdrop]; rfl⟩
  | hi :: lo :: rest =>
    exact ⟨_, entryAt_of_drop_word address hdrop, rfl, by rw [hplace, hdrop]; rfl⟩

/-! ## From the end -/

theorem exists_reads_of_countsBack (h : CountsBack image.length offset) :
    ∃ e, entryAt image address offset = .ok e ∧ Reads image address offset e := by
  obtain ⟨hstart, hstop⟩ := h
  obtain ⟨k, hk⟩ := Int.eq_ofNat_of_zero_le (by omega : 0 ≤ image.length + offset)
  have hcut : Window.cut image offset (offset + 2) = (image.drop k).take 2 := by
    have hi : Window.place image.length offset = k := by
      rw [Window.place, if_pos (by omega)]
      omega
    have hj : Window.place image.length (offset + 2) = k + 2 := by
      rw [Window.place, if_pos (by omega)]
      omega
    rw [Window.cut, hi, hj, List.drop_take, Nat.add_sub_cancel_left]
  have hplace : (if offset < 0 then image.length + offset else offset).toNat = k := by
    rw [if_pos (by omega)]
    omega
  have hin : ¬ (image.length : Int) ≤ offset := by omega
  have hnext : ¬ (image.length : Int) ≤ offset + 1 := by omega
  obtain ⟨hi, lo, rest, hdrop⟩ : ∃ hi lo rest, image.drop k = hi :: lo :: rest := by
    have hfirst : k < image.length := by omega
    have hsecond : k + 1 < image.length := by omega
    exact ⟨_, _, _, by rw [List.drop_eq_getElem_cons hfirst, List.drop_eq_getElem_cons hsecond]⟩
  rw [hdrop] at hcut
  refine ⟨⟨address, .word hi lo⟩, ?_, rfl, by rw [hplace, hdrop]; rfl⟩
  rw [entryAt, if_neg hin, if_neg hnext, hcut]
  rfl

/-- Elsewhere below zero the two positions enclose less than a word. -/
theorem entryAt_of_not_countsBack (hneg : offset < 0) (h : ¬ CountsBack image.length offset) :
    entryAt image address offset = .error .noBytes := by
  unfold CountsBack at h
  have hin : ¬ (image.length : Int) ≤ offset := by omega
  rw [entryAt, if_neg hin]
  split
  next hend =>
    have hlength := Window.length_cut image offset image.length
    unfold Window.place at hlength
    split
    next b hcut =>
      rw [hcut, List.length_singleton] at hlength
      omega
    next => rfl
  next =>
    have hlength := Window.length_cut image offset (offset + 2)
    unfold Window.place at hlength
    split
    next hi lo hcut =>
      rw [hcut, List.length_cons, List.length_singleton] at hlength
      split at hlength <;> omega
    next => rfl

/-! ## All offsets -/

/-- The three ends of reading an entry. -/
theorem entryAt_cases (image : List Byte) (address offset : Int) :
    (image.length ≤ offset ∧
      entryAt image address offset = .error (.beyondData offset image.length)) ∨
    (((0 ≤ offset ∧ offset < image.length) ∨ CountsBack image.length offset) ∧
      ∃ e, entryAt image address offset = .ok e ∧ Reads image address offset e) ∨
    ((offset < 0 ∧ ¬ CountsBack image.length offset) ∧
      entryAt image address offset = .error .noBytes) := by
  by_cases hin : (image.length : Int) ≤ offset
  · exact .inl ⟨hin, by rw [entryAt, if_pos hin]⟩
  by_cases hneg : offset < 0
  · by_cases hback : CountsBack image.length offset
    · exact .inr (.inl ⟨.inr hback, exists_reads_of_countsBack address hback⟩)
    · exact .inr (.inr ⟨⟨hneg, hback⟩, entryAt_of_not_countsBack address hneg hback⟩)
  · have hfront : 0 ≤ offset ∧ offset < image.length := by omega
    exact .inr (.inl ⟨.inl hfront, exists_reads_of_front address hfront.1 hfront.2⟩)

/-- **How reading an entry fails.** Exactly an offset at or behind the end is refused,
with its number and the image's length. An entry is read at every offset from the
front to the end, and at one below zero that counts back to a word with another
byte behind it; it has the bytes there and the address given. At every other
offset below zero reading fails for want of bytes. -/
theorem entryAt_failsExactly (image : List Byte) (address offset : Int) :
    (∀ o n, entryAt image address offset = .error (.beyondData o n) ↔
      image.length ≤ offset ∧ o = offset ∧ n = image.length) ∧
    ((∃ e, entryAt image address offset = .ok e) ↔
      (0 ≤ offset ∧ offset < image.length) ∨ CountsBack image.length offset) ∧
    (∀ e, entryAt image address offset = .ok e → Reads image address offset e) ∧
    (entryAt image address offset = .error .noBytes ↔
      offset < 0 ∧ ¬ CountsBack image.length offset) := by
  rcases entryAt_cases image address offset with ⟨hend, h⟩ | ⟨hread, e, h, he⟩ | ⟨hback, h⟩
  · have hout : ¬ ((0 ≤ offset ∧ offset < image.length) ∨ CountsBack image.length offset) := by
      unfold CountsBack
      omega
    have hneg : ¬ offset < 0 := by omega
    simp [h, hend, hout, hneg, eq_comm]
  · have hend : ¬ image.length ≤ offset := by
      unfold CountsBack at hread
      omega
    have hneg : ¬ (offset < 0 ∧ ¬ CountsBack image.length offset) := by
      rintro ⟨hneg, hback⟩
      rcases hread with hfront | hread
      · omega
      · exact hback hread
    refine ⟨?_, iff_of_true ⟨e, h⟩ hread, ?_, ?_⟩
    · simp [h, hend]
    · intro e' h'
      rw [h] at h'
      exact Except.ok.inj h' ▸ he
    · simp [h, hneg]
  · have hend : ¬ image.length ≤ offset := by omega
    have hfront : ¬ 0 ≤ offset := by omega
    simp [h, hend, hfront, hback]

/-- The last word of an image is not read by its offset from the end, and it is not
said that the offset is beyond the image. -/
theorem lastWord_isUnread :
    ¬ ((∃ e, entryAt [0x12, 0x34] 0x200 (-2) = .ok e) ∨
      ∃ o n, entryAt [0x12, 0x34] 0x200 (-2) = .error (.beyondData o n)) := by
  have hfails : entryAt [0x12, 0x34] 0x200 (-2) = .error .noBytes := rfl
  rw [hfails]
  rintro (⟨e, h⟩ | ⟨o, n, h⟩)
  · cases h
  · cases h

end Listing
end Chip8
