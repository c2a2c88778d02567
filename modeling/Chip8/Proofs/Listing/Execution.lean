/-
A listing read beside the machine. The listing takes its words off the image,
two bytes at a time; the machine fetches them from memory, where the image lies
from `$200` on. Both meet the same words at the same addresses: what is listed
as data fails to decode for the reason in the comment, and what is listed as an
instruction is carried out as just that instruction, ends a run where the note
says so, and is traced by the listing's own line.
-/
import Chip8.Proofs.Effect
import Chip8.Proofs.Listing
import Chip8.Proofs.Tool.Line
import Chip8.Tool.Lister

namespace Chip8

/-- A machine that has done nothing yet is held up by a return alone. -/
theorem Machine.obstacle?_of_new {m : Machine} (hs : m.stack.depth = 0) (hr : ∀ x, m.register x = 0)
    (i : Instruction) : m.obstacle? i = if i = .ret then some .stackUnderflow else none := by
  cases i <;> simp [obstacle?, hs, hr]

namespace Listing

open Tool (Lister.entryLine Pace Session.stepEvents)

/-! ## Entries of words -/

/-- An entry of a word shows the two bytes of the image at its address. -/
theorem bytes_of_mem_entries {start : Int} {image : List Byte} {e : Entry} {hi lo : Byte}
    (he : e ∈ entries start image) (hc : e.content = .word hi lo) :
    ∃ offset : Nat, e.address = start + offset ∧ image[offset]? = some hi ∧
      image[offset + 1]? = some lo := by
  induction start, image using entries.induct with
  | case1 start => cases he
  | case2 start b =>
    rw [entries, List.mem_singleton] at he
    rw [he] at hc
    cases hc
  | case3 start hi' lo' rest ih =>
    rw [entries, List.mem_cons] at he
    rcases he with rfl | he
    · cases hc
      exact ⟨0, (Int.add_zero start).symm, rfl, rfl⟩
    · obtain ⟨offset, ha, hhi, hlo⟩ := ih he
      exact ⟨offset + 2, by omega, hhi, hlo⟩

namespace Entry

variable {e : Entry} {hi lo : Byte}

theorem exists_word_of_size (h : e.size = 2) : ∃ hi lo, e.content = .word hi lo := by
  unfold size bytes at h
  cases hc : e.content with
  | word hi lo => exact ⟨hi, lo, rfl⟩
  | trailing b => simp [hc, Content.bytes] at h

theorem reading_of_word (hc : e.content = .word hi lo) : e.content.reading =
    match Instruction.ofWord? (Word.ofBytes hi lo) with
    | some i => .ok i
    | none => .error (Instruction.undecodable (Word.ofBytes hi lo)).description := by
  rw [hc, Content.reading, Instruction.decode]
  cases Instruction.ofWord? (Word.ofBytes hi lo) <;> rfl

theorem instruction?_of_word (hc : e.content = .word hi lo) :
    e.instruction? = Instruction.ofWord? (Word.ofBytes hi lo) := by
  rw [instruction?, Content.instruction?, reading_of_word hc]
  cases Instruction.ofWord? (Word.ofBytes hi lo) <;> rfl

/-- A word that is no instruction is shown in full, with the reason. -/
theorem texts_of_data (hc : e.content = .word hi lo) (h : e.instruction? = none) :
    e.mnemonic = ".WORD" ∧ e.operandText = "$" ++ Numeral.hex 4 (Word.ofBytes hi lo).toNat ∧
      e.comment = (Instruction.undecodable (Word.ofBytes hi lo)).description := by
  refine ⟨?_, ?_, ?_⟩
  · rw [mnemonic, h, hc]
    rfl
  · rw [operandText, h, hc]
    rfl
  · rw [comment, reading_of_word hc, ← instruction?_of_word hc, h]

variable {i : Instruction}

theorem assembly_of_instruction? (h : e.instruction? = some i) : e.assembly = i.assembly := by
  rw [assembly, mnemonic, operandText, h]
  rfl

theorem comment_eq_halt_iff (hc : e.content = .word hi lo) (h : e.instruction? = some i) :
    e.comment = "halt (jump to self)" ↔ ∃ a, i = .jump a ∧ (a.toNat : Int) = e.address := by
  rw [comment, reading_of_word hc, ← instruction?_of_word hc, h]
  cases i with
  | jump a => simp [jumpsTo]
  | _ => simp [jumpsTo]

/-! ## At the machine -/

/-- What an entry tells of the step of a machine that stands at it. -/
structure Foretells (e : Entry) (m : Machine) (press : Option Key.Reference) : Prop where
  address : (m.pc.toNat : Int) = e.address
  /-- Data shows the word, which fails to decode for the reason in the comment. -/
  data : e.instruction? = none → e.mnemonic = ".WORD" ∧
    e.operandText = "$" ++ Numeral.hex 4 m.fetch.toNat ∧
    ∃ f, (m.step press).1 = .error (.fault f) ∧ .decoding ∈ f.kind.lineage ∧
      f.address = some e.address ∧ f.cause.description = e.comment
  decoded : ∀ i, e.instruction? = some i → Instruction.decode m.fetch = .ok i
  /-- The instruction is carried out. Only a return has nowhere to go. -/
  result : ∀ i, e.instruction? = some i → (m.step press).1 =
    if i = .ret then .error (m.faultHere .stackUnderflow) else .ok ⟨m.pc, i⟩
  halted : ∀ i, e.instruction? = some i →
    ((m.step press).2.halted = true ↔ e.comment = "halt (jump to self)")
  text : ∀ i, e.instruction? = some i →
    i.assembly = if e.operandText = "" then e.mnemonic else e.mnemonic ++ " " ++ e.operandText
  /-- To what else is told about the step, a trace adds the listing's line
  without the comment. -/
  traced : ∀ i, e.instruction? = some i → ∃ line,
    (∀ p : Pace, p.trace = true → Session.stepEvents p m ⟨m.pc, i⟩ =
      Session.stepEvents { p with trace := false } m ⟨m.pc, i⟩ ++ [.err (line ++ "\n")]) ∧
    Lister.entryLine true e = line ++ if e.comment = "" then "" else "  ; " ++ e.comment

/-- An entry foretells the step of a machine that fetches its word, is not
halted, and is held up by a return alone. -/
theorem foretells {m : Machine} {press : Option Key.Reference} (hc : e.content = .word hi lo)
    (ha : (m.pc.toNat : Int) = e.address) (hw : m.fetch = Word.ofBytes hi lo)
    (ho : ∀ i, m.obstacle? i = if i = .ret then some .stackUnderflow else none)
    (hhalted : m.halted = false) (hp : Machine.NamesKey press) : e.Foretells m press := by
  have hentry : e.instruction? = Instruction.ofWord? m.fetch := hw ▸ instruction?_of_word hc
  have hresult : ∀ i, e.instruction? = some i → (m.step press).1 =
      if i = .ret then .error (m.faultHere .stackUnderflow) else .ok ⟨m.pc, i⟩ := by
    intro i hi
    rw [hentry] at hi
    split
    next hret =>
      have hobstacle : m.obstacle? i = some .stackUnderflow := (ho i).trans (if_pos hret)
      exact Machine.step_eq_fault_iff.2 ⟨hp, rfl, .inr ⟨i, hi, hobstacle⟩⟩
    next hret =>
      have hobstacle : m.obstacle? i = none := (ho i).trans (if_neg hret)
      exact Machine.step_eq_ok_iff.2 ⟨hp, rfl, hi, hobstacle⟩
  refine {
    address := ha
    data := fun hnone => ?_
    decoded := fun i hi => Instruction.decode_eq_ok_iff.2 (hentry ▸ hi)
    result := hresult
    halted := fun i hi => ?_
    text := fun i hi => (assembly_of_instruction? hi).symm
    traced := fun i hi => ⟨e.addressText ++ ": " ++ e.assembly, fun p htrace => ?_, rfl⟩ }
  · obtain ⟨hmnemonic, hoperands, hcomment⟩ := texts_of_data hc hnone
    rw [← hw] at hoperands hcomment
    rw [hentry] at hnone
    exact ⟨hmnemonic, hoperands, ⟨Instruction.undecodable m.fetch, some m.pc.toNat⟩,
      Machine.step_eq_fault_iff.2 ⟨hp, rfl, .inl ⟨hnone, rfl⟩⟩,
      Instruction.decoding_mem_lineage_undecodable m.fetch, congrArg some ha, hcomment.symm⟩
  · -- Only a jump to itself halts the machine, and the note is on such a jump alone.
    rw [(m.step_confined press).halted, hhalted, comment_eq_halt_iff hc hi, hresult i hi, ← ha]
    constructor
    · rintro (h | ⟨a, h, hself⟩)
      · cases h
      · split at h
        · cases h
        · cases h
          exact ⟨a, rfl, congrArg Int.ofNat hself⟩
    · rintro ⟨a, rfl, hself⟩
      exact .inr ⟨a, if_neg nofun, Int.ofNat_inj.1 hself⟩
  · have hline := Tool.sayErr_traceLine m.pc i
    rw [addressText, ← ha, assembly_of_instruction? hi]
    simp [Session.stepEvents, htrace, hline]

end Entry

/-- **Listing and machine agree on every program.** Whatever two-byte entry of
a program's listing a newly loaded machine is set to, in any dialect, its step
is what the entry tells. -/
theorem disassemble_foretells (program : List Byte) (dialect : Dialect) (clock : Supply Float)
    (random : Supply Byte) (h : program.length ≤ 0xE00) :
    ∃ m, Machine.load program dialect clock random = .ok m ∧
      ∀ e ∈ disassemble program 0x200 none, e.size = 2 → ∀ press, Machine.NamesKey press →
        e.Foretells (m.setPc e.address) press := by
  obtain ⟨M, hload, hread⟩ := Memory.load_spec h
  refine ⟨_, by rw [Machine.load, hload]; rfl, fun e he hsize press hp => ?_⟩
  obtain ⟨hi, lo, hc⟩ := Entry.exists_word_of_size hsize
  obtain ⟨offset, ha, hhi, hlo⟩ := bytes_of_mem_entries he hc
  have hoffset : offset + 1 < program.length := (List.getElem?_eq_some_iff.1 hlo).1
  have hpc : (BitVec.ofInt 16 e.address).toNat = 0x200 + offset := by
    have hplace : e.address = ((0x200 + offset : Nat) : Int) := by omega
    rw [hplace, BitVec.ofInt_natCast, BitVec.toNat_ofNat]
    omega
  have hregister : ∀ x : Register, RegisterFile.read {} x = 0 := by
    intro x
    simp [RegisterFile.read]
  refine Entry.foretells hc ?_ ?_ (Machine.obstacle?_of_new rfl hregister) rfl hp
  · show ((BitVec.ofInt 16 e.address).toNat : Int) = e.address
    omega
  · show M.readWord (BitVec.ofInt 16 e.address).toNat = Word.ofBytes hi lo
    rw [Memory.readWord, hpc, hread offset hi hhi]
    exact congrArg (Word.ofBytes hi) (hread (offset + 1) lo hlo)

/-- A jump to itself is noted in the listing, and halts the machine. -/
theorem selfJump_foretold :
    ∃ m, Machine.load [0x12, 0x00] .standard (.constant 0) (.constant 0) = .ok m ∧
      ((m.setPc 0x200).step none).1 = .ok ⟨0x200, .jump 0x200⟩ ∧
      ((m.setPc 0x200).step none).2.halted = true := by
  obtain ⟨m, hm, h⟩ :=
    disassemble_foretells [0x12, 0x00] .standard (.constant 0) (.constant 0) (by decide)
  have hentry := h ⟨0x200, .word 0x12 0x00⟩ (by decide) rfl none nofun
  have hi : Entry.instruction? ⟨0x200, .word 0x12 0x00⟩ = some (.jump 0x200) := by decide
  exact ⟨m, hm, hentry.result _ hi, (hentry.halted _ hi).2 (by decide)⟩

end Listing
end Chip8
