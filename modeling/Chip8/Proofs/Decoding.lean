/-
`encode` writes the one word that `ofWord?` reads an instruction off: the two
undo each other, so a word is an instruction exactly if it is the word of one.

A word is taken apart into its four nibbles (`Word.eq_append`); after that each
family is one case.
-/
import Chip8.Instruction.Decoding
import Mathlib.Algebra.Group.Nat.Defs

namespace Chip8

/-! ## Nibbles -/

theorem toNat_append_eq {v w : Nat} (a : BitVec v) (b : BitVec w) :
    (a ++ b).toNat = 2 ^ w * a.toNat + b.toNat := by
  rw [BitVec.toNat_append, ← Nat.shiftLeft_add_eq_or_of_lt b.isLt, Nat.shiftLeft_eq, Nat.mul_comm]

namespace Word

theorem eq_append (w : Word) : ∃ f x y n : Nibble, w = f ++ x ++ y ++ n := by
  refine ⟨w.extractLsb' 12 4, w.extractLsb' 8 4, w.extractLsb' 4 4, w.extractLsb' 0 4, ?_⟩
  rw [BitVec.extractLsb'_append_extractLsb'_eq_extractLsb' (by rfl : 12 = 8 + 4),
    BitVec.extractLsb'_append_extractLsb'_eq_extractLsb' (by rfl : 8 = 4 + 4),
    BitVec.extractLsb'_append_extractLsb'_eq_extractLsb' (by rfl : 4 = 0 + 4)]
  exact BitVec.extractLsb'_eq_self.symm

theorem append_target (f x y n : Nibble) : (f ++ (x ++ y ++ n) : Word) = f ++ x ++ y ++ n :=
  calc (f ++ (x ++ y ++ n) : Word)
      = f ++ (x ++ y) ++ n := BitVec.append_assoc.symm
    _ = f ++ x ++ y ++ n := congrArg (· ++ n) BitVec.append_assoc.symm

theorem append_byte (f x y n : Nibble) : (f ++ x ++ (y ++ n) : Word) = f ++ x ++ y ++ n :=
  BitVec.append_assoc.symm

theorem nibbles_append (f x y n : Nibble) : Word.nibbles (f ++ x ++ y ++ n) = (f, x, y, n) := by
  simp (disch := omega) only [nibbles, Prod.mk.injEq, BitVec.extractLsb'_append_eq_of_le,
    BitVec.extractLsb'_append_eq_of_add_le, BitVec.extractLsb'_eq_self]
  simp

theorem nibbles_append_byte (f x : Nibble) (b : Byte) :
    Word.nibbles (f ++ x ++ b) = (f, x, b.extractLsb' 4 4, b.extractLsb' 0 4) := by
  simp (disch := omega) only [nibbles, Prod.mk.injEq, BitVec.extractLsb'_append_eq_of_le,
    BitVec.extractLsb'_append_eq_of_add_le]
  simp

theorem target_append (f x y n : Nibble) :
    (f ++ x ++ y ++ n : Word).extractLsb' 0 12 = x ++ y ++ n := by
  rw [← append_target]
  exact BitVec.extractLsb'_append_eq_right

theorem byte_append (f x y n : Nibble) : (f ++ x ++ y ++ n : Word).extractLsb' 0 8 = y ++ n := by
  rw [← append_byte]
  exact BitVec.extractLsb'_append_eq_right

theorem byte_append_byte (f x : Nibble) (b : Byte) :
    (f ++ x ++ b : Word).extractLsb' 0 8 = b :=
  BitVec.extractLsb'_append_eq_right

theorem ofBytes_inj {hi lo hi' lo' : Byte} (h : ofBytes hi lo = ofBytes hi' lo') :
    hi = hi' ∧ lo = lo' := by
  have hhi : ∀ a b : Byte, (ofBytes a b).extractLsb' 8 8 = a := fun _ _ =>
    BitVec.extractLsb'_append_eq_left
  have hlo : ∀ a b : Byte, (ofBytes a b).extractLsb' 0 8 = b := fun _ _ =>
    BitVec.extractLsb'_append_eq_right
  exact ⟨by rw [← hhi hi lo, h, hhi], by rw [← hlo hi lo, h, hlo]⟩

/-- A word is its two bytes. -/
theorem ofBytes_extract (w : Word) : ofBytes (w.extractLsb' 8 8) (w.extractLsb' 0 8) = w := by
  rw [ofBytes, BitVec.extractLsb'_append_extractLsb'_eq_extractLsb' (by rfl : 8 = 0 + 8)]
  exact BitVec.extractLsb'_eq_self

theorem toNat_ofBytes (hi lo : Byte) : (ofBytes hi lo).toNat = 256 * hi.toNat + lo.toNat :=
  toNat_append_eq hi lo

end Word

theorem Address.eq_append (a : Address) : ∃ x y n : Nibble, a = x ++ y ++ n := by
  refine ⟨a.extractLsb' 8 4, a.extractLsb' 4 4, a.extractLsb' 0 4, ?_⟩
  rw [BitVec.extractLsb'_append_extractLsb'_eq_extractLsb' (by rfl : 8 = 4 + 4),
    BitVec.extractLsb'_append_extractLsb'_eq_extractLsb' (by rfl : 4 = 0 + 4)]
  exact BitVec.extractLsb'_eq_self.symm

/-! ## Reading and writing -/

namespace Instruction

theorem encode_of_arithmetic? {x y n : Nibble} {i : Instruction} (h : arithmetic? x y n = some i) :
    i.encode = 0x8#4 ++ x ++ y ++ n := by
  unfold arithmetic? at h
  split at h <;> cases h <;> rfl

theorem encode_of_peripheral? {x : Nibble} {b : Byte} {i : Instruction}
    (h : peripheral? x b = some i) : i.encode = 0xF#4 ++ x ++ b := by
  unfold peripheral? at h
  split at h <;> cases h <;> rfl

/-- The word an instruction was read off is the word it is written as. -/
theorem encode_of_ofWord? {w : Word} {i : Instruction} (h : ofWord? w = some i) : i.encode = w := by
  obtain ⟨f, x, y, n, rfl⟩ := w.eq_append
  simp only [ofWord?, Word.nibbles_append, Word.byte_append, Word.target_append] at h
  split at h
  case h_1 =>
    split at h
    next hw => cases h; exact hw.symm
    split at h
    next hw => cases h; exact hw.symm
    cases h
  case h_6 | h_10 =>
    split at h
    next hn => cases h; subst hn; rfl
    cases h
  case h_9 => exact encode_of_arithmetic? h
  case h_14 => cases h; rfl
  case h_15 =>
    split at h
    next hb => cases h; rw [← Word.append_byte, hb]; rfl
    split at h
    next hb => cases h; rw [← Word.append_byte, hb]; rfl
    cases h
  case h_16 =>
    -- Every other family has been ruled out.
    have hf : f = 0xF#4 := by
      clear h
      revert f
      decide
    rw [encode_of_peripheral? h, hf, Word.append_byte]
  case h_2 | h_3 | h_11 | h_12 => cases h; exact Word.append_target ..
  all_goals cases h; exact Word.append_byte ..

theorem ofWord?_encode (i : Instruction) : ofWord? i.encode = some i := by
  cases i with
  | clear | ret => rfl
  | jump a | call a | loadIndex a | jumpOffset a =>
    obtain ⟨x, y, n, rfl⟩ := a.eq_append
    simp only [encode, Word.append_target, ofWord?, Word.nibbles_append, Word.target_append]
  | skipEqByte | skipNeByte | loadByte | addByte | random =>
    simp only [encode, ofWord?, Word.byte_append_byte, Word.nibbles_append_byte]
  | draw => simp only [encode, ofWord?, Word.nibbles_append]
  | skipEq | load | or | and | xor | add | sub | shiftRight | subFrom | shiftLeft | skipNe =>
    simp only [encode, ofWord?, Word.nibbles_append]
    rfl
  | _ =>
    simp only [encode, ofWord?, Word.byte_append_byte, Word.nibbles_append_byte]
    rfl

/-- A word is an instruction exactly if it is that instruction's word. -/
theorem ofWord?_eq_some_iff {w : Word} {i : Instruction} : ofWord? w = some i ↔ i.encode = w :=
  ⟨encode_of_ofWord?, fun h => h ▸ ofWord?_encode i⟩

theorem decode_eq_ok_iff {w : Word} {i : Instruction} : decode w = .ok i ↔ ofWord? w = some i := by
  unfold decode
  split <;> simp_all

end Instruction

end Chip8
