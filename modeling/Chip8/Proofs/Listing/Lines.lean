/-
The lines of a listing and of its dump are lines: what stands in them are printable
characters, whatever the image is.
-/
import Chip8.Proofs.Failure
import Chip8.Proofs.Listing

namespace Chip8.Listing

/-- A text without control characters: neither the end of a line is in it nor a
control sequence. -/
def IsLine (text : String) : Prop := ∀ c ∈ text.toList, 32 ≤ c.toNat

instance (text : String) : Decidable (IsLine text) :=
  decidable_of_iff (text.toList.all fun c => 32 ≤ c.toNat) (by simp [IsLine])

namespace IsLine

theorem append_iff {s t : String} : IsLine (s ++ t) ↔ IsLine s ∧ IsLine t := by
  simp only [IsLine, String.toList_append, List.forall_mem_append]

theorem intercalate {sep : String} {ts : List String} (hsep : IsLine sep) (hts : ∀ t ∈ ts, IsLine t) :
    IsLine (String.intercalate sep ts) := by
  intro c hc
  by_contra hlow
  rw [String.toList_intercalate] at hc
  refine Text.not_mem_intercalate (fun h => hlow (hsep c h)) (List.forall_mem_map.2 ?_) hc
  exact fun t ht h => hlow (hts t ht c h)

theorem hex (width : Nat) (n : Int) : IsLine (Numeral.hex width n) := by
  intro c hc
  by_contra hlow
  have hdigits : IsLine "0123456789ABCDEF" := by decide
  refine Numeral.not_mem_hex (fun h => hlow (hdigits c h)) (fun h => hlow ?_) width n hc
  rw [h]
  decide

theorem blanks (n : Nat) : IsLine (String.ofList (List.replicate n ' ')) := by
  intro c hc
  rw [String.toList_ofList, List.mem_replicate] at hc
  rw [hc.2]
  decide

theorem padRight {text : String} (h : IsLine text) (width : Nat) :
    IsLine (Numeral.padRight width text) := append_iff.2 ⟨h, blanks _⟩

theorem byteColumn (bytes : List Byte) : IsLine (Entry.byteColumn bytes) :=
  intercalate (by decide) (List.forall_mem_map.2 fun b _ => hex 2 b.toNat)

theorem ofInstruction (i : Instruction) : IsLine i.assembly := by
  intro c hc
  by_contra hlow
  have hdigits : IsLine "0123456789ABCDEF" := by decide
  have hsigns : IsLine ", $IKSTV[]" := by decide
  have hupper : c.isUpper = false := by
    refine decide_eq_false fun h => hlow ?_
    exact Nat.le_trans (by decide : 32 ≤ 65) (UInt32.le_iff_toNat_le.1 h.1)
  exact i.not_mem_assembly hupper (fun h => hlow (hdigits c h)) (fun h => hlow (hsigns c h)) hc

theorem join {mnemonic operands : String} (hm : IsLine mnemonic) (ho : IsLine operands) :
    IsLine (Instruction.join mnemonic operands) := by
  unfold Instruction.join
  split
  · exact hm
  · exact append_iff.2 ⟨append_iff.2 ⟨hm, by decide⟩, ho⟩

theorem undecodable (w : Word) : IsLine (Instruction.undecodable w).description := by
  rw [Instruction.undecodable_eq]
  split
  · show IsLine ("unknown sub-operation $" ++ Numeral.hex 0 _ ++ " for family $" ++ Numeral.hex 0 8 ++
      " (word $" ++ Numeral.hex 4 w.toNat ++ ")")
    simp only [append_iff, hex, and_true]
    decide
  · exact append_iff.2 ⟨by decide, hex 4 w.toNat⟩

end IsLine

namespace Entry

theorem isLine_assembly (e : Entry) : IsLine e.assembly := by
  rw [assembly]
  rcases e.texts_cases with ⟨i, -, hm, ho⟩ | ⟨hm, ho⟩
  · rw [hm, ho]
    exact IsLine.ofInstruction i
  · rw [hm, ho]
    cases e.content with
    | word hi lo =>
      have hname : IsLine ".WORD" := by decide
      exact hname.join (IsLine.append_iff.2 ⟨by decide, IsLine.hex 4 _⟩)
    | trailing b =>
      have hname : IsLine ".BYTE" := by decide
      exact hname.join (IsLine.append_iff.2 ⟨by decide, IsLine.hex 2 _⟩)

theorem isLine_reading {c : Content} {reason : String} (h : c.reading = .error reason) :
    IsLine reason := by
  cases c with
  | trailing b =>
    cases h
    decide
  | word hi lo =>
    cases hword : Instruction.ofWord? (Word.ofBytes hi lo) with
    | some i =>
      simp only [Content.reading, Instruction.decode, hword] at h
      cases h
    | none =>
      simp only [Content.reading, Instruction.decode, hword] at h
      cases h
      exact IsLine.undecodable _

theorem isLine_comment (e : Entry) : IsLine e.comment := by
  unfold comment
  split
  · split <;> decide
  · next h => exact isLine_reading h

theorem isLine_line (e : Entry) : IsLine e.line := by
  have hfront : IsLine (e.addressText ++ ": " ++ Numeral.padRight 5 (byteColumn e.bytes) ++ "  ") := by
    simp only [addressText, IsLine.append_iff, IsLine.hex, IsLine.padRight (IsLine.byteColumn _),
      and_true]
    decide
  refine IsLine.append_iff.2 ⟨hfront, ?_⟩
  split
  · exact e.isLine_assembly
  · simp only [IsLine.append_iff, IsLine.padRight e.isLine_assembly, e.isLine_comment, and_true,
      true_and]
    decide

end Entry

theorem isLine_dumpLines (image : List Byte) (start : Int) :
    ∀ line ∈ dumpLines image start, IsLine line := by
  intro line hline
  obtain ⟨k, hk, rfl⟩ := List.mem_mapIdx.1 hline
  simp only [IsLine.append_iff, IsLine.hex, IsLine.byteColumn, and_true]
  decide

end Chip8.Listing
