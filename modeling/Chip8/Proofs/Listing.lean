/-
A listing keeps the image. The bytes of its entries in order are the image, and
an entry's text, without its bytes, still tells what the entry holds: an
instruction tells its word, and data shows its value. So images with the same
mnemonics and operands are the same.
-/
import Chip8.Listing
import Chip8.Proofs.Assembly
import Chip8.Proofs.Decoding

namespace Chip8.Listing

/-- The bytes of a listing's entries in order are the image. -/
theorem flatMap_bytes_entries (start : Int) (image : List Byte) :
    (entries start image).flatMap Entry.bytes = image := by
  induction start, image using entries.induct with
  | case1 start => rfl
  | case2 start b => rfl
  | case3 start hi lo rest ih => simp [entries, Entry.bytes, Content.bytes, ih]

/-! ## What a text tells -/

namespace Content

/-- An instruction tells its word. -/
theorem of_instruction? {c : Content} {i : Instruction} (h : c.instruction? = some i) :
    ∃ hi lo, c = word hi lo ∧ i.encode = Word.ofBytes hi lo := by
  cases c with
  | trailing b => cases h
  | word hi lo =>
    refine ⟨hi, lo, rfl, Instruction.encode_of_ofWord? ?_⟩
    rw [← Instruction.decode_eq_ok_iff]
    simp only [instruction?, reading] at h
    split at h
    next j hj =>
      cases h
      revert hj
      split <;> simp_all
    next => cases h

theorem directive_injective : Function.Injective directive := by
  intro c d h
  cases c <;> cases d <;> simp only [directive, Byte.assembly, Prod.mk.injEq, String.append_right_inj] at h
  case word.word hi lo hi' lo' =>
    have := BitVec.eq_of_toNat_eq (Numeral.hex_injective h.2)
    obtain ⟨rfl, rfl⟩ := Word.ofBytes_inj this
    rfl
  case trailing.trailing b b' =>
    rw [BitVec.eq_of_toNat_eq (Numeral.hex_injective h.2)]
  case word.trailing => simp at h
  case trailing.word => simp at h

theorem mnemonic_ne_directive (i : Instruction) (c : Content) : i.mnemonic ≠ c.directive.1 := by
  cases c <;> cases i <;> simp [directive, Instruction.mnemonic]

theorem blank_not_mem_directive (c : Content) : ' ' ∉ c.directive.1.toList := by
  cases c <;> simp [directive]

end Content

namespace Entry

/-- The texts of an entry: as an instruction's, or as data's. -/
theorem texts_cases (e : Entry) :
    (∃ i, e.instruction? = some i ∧ e.mnemonic = i.mnemonic ∧ e.operandText = i.operandText) ∨
      (e.mnemonic = e.content.directive.1 ∧ e.operandText = e.content.directive.2) := by
  unfold mnemonic operandText
  cases h : e.instruction? with
  | some i => exact .inl ⟨i, rfl, rfl, rfl⟩
  | none => exact .inr ⟨rfl, rfl⟩

/-- Entries with the same mnemonic and the same operands hold the same. -/
theorem content_eq_of_texts {e f : Entry} (hm : e.mnemonic = f.mnemonic)
    (ho : e.operandText = f.operandText) : e.content = f.content := by
  rcases e.texts_cases with ⟨i, hi, hmi, hoi⟩ | ⟨hme, hoe⟩ <;>
    rcases f.texts_cases with ⟨j, hj, hmj, hoj⟩ | ⟨hmf, hof⟩
  · have hij : i = j := Instruction.eq_of_texts (by rw [← hmi, hm, hmj]) (by rw [← hoi, ho, hoj])
    obtain ⟨hi₁, lo₁, he, hw₁⟩ := Content.of_instruction? hi
    obtain ⟨hi₂, lo₂, hf, hw₂⟩ := Content.of_instruction? hj
    obtain ⟨rfl, rfl⟩ := Word.ofBytes_inj (hw₁.symm.trans (hij ▸ hw₂))
    rw [he, hf]
  · exact absurd (by rw [← hmi, hm, hmf]) (Content.mnemonic_ne_directive i f.content)
  · exact absurd (by rw [← hmj, ← hm, hme]) (Content.mnemonic_ne_directive j e.content)
  · apply Content.directive_injective
    exact Prod.ext (by rw [← hme, hm, hmf]) (by rw [← hoe, ho, hof])

theorem blank_not_mem_mnemonic (e : Entry) : ' ' ∉ e.mnemonic.toList := by
  rcases e.texts_cases with ⟨i, -, hm, -⟩ | ⟨hm, -⟩ <;> rw [hm]
  · exact i.blank_not_mem_mnemonic
  · exact e.content.blank_not_mem_directive

/-- Entries with the same line of assembly hold the same. -/
theorem content_eq_of_assembly {e f : Entry} (h : e.assembly = f.assembly) : e.content = f.content := by
  obtain ⟨hm, ho⟩ :=
    Instruction.join_inj e.blank_not_mem_mnemonic f.blank_not_mem_mnemonic h
  exact content_eq_of_texts hm ho

end Entry

/-! ## Whole listings -/

theorem map_content_eq {l l' : List Entry}
    (h : (l.map fun e => (e.mnemonic, e.operandText)) = l'.map fun e => (e.mnemonic, e.operandText)) :
    l.map Entry.content = l'.map Entry.content := by
  induction l generalizing l' with
  | nil => cases l' <;> simp_all
  | cons e l ih =>
    cases l' with
    | nil => simp at h
    | cons f l' =>
      simp only [List.map_cons, List.cons.injEq, Prod.mk.injEq] at h
      obtain ⟨⟨hm, ho⟩, hrest⟩ := h
      rw [List.map_cons, List.map_cons, Entry.content_eq_of_texts hm ho, ih hrest]

/-- **The listing is lossless without its bytes.** For every start, images with
the same mnemonics and operands are the same. Entries with one line of assembly
hold the same: no two instructions, whatever their operands, share a text; no
data shares one with an instruction; and no two pieces of data share one. -/
theorem disassemble_injective (start : Int) :
    (Function.Injective fun image =>
      (disassemble image start none).map fun e => (e.mnemonic, e.operandText)) ∧
    (∀ e f : Entry, e.assembly = f.assembly → e.content = f.content) ∧
    (Function.Injective fun i : Instruction => (i.mnemonic, i.operandText)) ∧
    Function.Injective Instruction.assembly ∧
    (∀ (i : Instruction) (c : Content),
      (i.mnemonic, i.operandText) ≠ c.directive ∧
        i.assembly ≠ Instruction.join c.directive.1 c.directive.2) ∧
    (Function.Injective fun c : Content => Instruction.join c.directive.1 c.directive.2) := by
  refine ⟨?_, fun e f => Entry.content_eq_of_assembly, ?_, ?_, ?_, ?_⟩
  · intro d₁ d₂ h
    have hcontent := congrArg (List.flatMap Content.bytes) (map_content_eq h)
    simp only [List.flatMap_map] at hcontent
    calc d₁ = (entries start d₁).flatMap Entry.bytes := (flatMap_bytes_entries start d₁).symm
      _ = (entries start d₂).flatMap Entry.bytes := hcontent
      _ = d₂ := flatMap_bytes_entries start d₂
  · intro i j h
    obtain ⟨hm, ho⟩ := Prod.mk.inj h
    exact Instruction.eq_of_texts hm ho
  · intro i j h
    obtain ⟨hm, ho⟩ :=
      Instruction.join_inj i.blank_not_mem_mnemonic j.blank_not_mem_mnemonic h
    exact Instruction.eq_of_texts hm ho
  · intro i c
    have hne := Content.mnemonic_ne_directive i c
    refine ⟨fun h => hne (congrArg Prod.fst h), fun h => hne ?_⟩
    exact (Instruction.join_inj i.blank_not_mem_mnemonic c.blank_not_mem_directive h).1
  · intro c d h
    obtain ⟨hm, ho⟩ := Instruction.join_inj c.blank_not_mem_directive d.blank_not_mem_directive h
    exact Content.directive_injective (Prod.ext hm ho)

end Chip8.Listing
