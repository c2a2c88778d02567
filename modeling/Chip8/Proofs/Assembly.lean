/-
Assembly read back. Every operand is written with one of eleven symbols, and
its text tells which one (`Symbol.read?`); mnemonic and symbols tell the
instruction (`ofSymbols?`). So no two instructions share a text, whether the
mnemonic and the operands are compared one by one or in one line.
-/
import Chip8.Instruction.Assembly
import Chip8.Proofs.Numeral
import Chip8.Proofs.Text

namespace Chip8

namespace Instruction

/-! ## Symbols -/

/-- What an operand is written with. -/
inductive Symbol
  | register (r : Register)
  | byte (b : Byte)
  | target (a : Address)
  | height (n : Nibble)
  | index
  | block
  | delay
  | sound
  | key
  | glyph
  | decimal
deriving DecidableEq, Repr

namespace Symbol

/-- The text of a symbol. -/
def text : Symbol → String
  | register r => r.name
  | byte b => Byte.assembly b
  | target a => Address.assembly a
  | height n => Numeral.decimal n.toNat
  | index => "I"
  | block => "[I]"
  | delay => "DT"
  | sound => "ST"
  | key => "K"
  | glyph => "F"
  | decimal => "B"

/-- The symbol of a text. -/
def read? : List Char → Option Symbol
  | ['V', d] => some (register (BitVec.ofNat 4 (Numeral.value 16 [d])))
  | ['$', c, d] => some (byte (BitVec.ofNat 8 (Numeral.value 16 [c, d])))
  | ['$', b, c, d] => some (target (BitVec.ofNat 12 (Numeral.value 16 [b, c, d])))
  | ['I'] => some index
  | ['[', 'I', ']'] => some block
  | ['D', 'T'] => some delay
  | ['S', 'T'] => some sound
  | ['K'] => some key
  | ['F'] => some glyph
  | ['B'] => some decimal
  | cs => some (height (BitVec.ofNat 4 (Numeral.value 10 cs)))

theorem exists_digits (width n : Nat) (hw : 0 < width) (h : n < 16 ^ width) :
    ∃ cs, (Numeral.hex width n).toList = cs ∧ cs.length = width ∧ Numeral.value 16 cs = n :=
  ⟨_, Numeral.toList_render .., Numeral.length_characters (by omega) hw h,
    Numeral.value_characters (by omega) (Nat.le_refl 16) width n⟩

theorem read?_register (r : Register) : read? (register r).text.toList = some (register r) := by
  obtain ⟨cs, hcs, hlen, hv⟩ := exists_digits 1 r.toNat (by omega) r.isLt
  obtain ⟨d, rfl⟩ := List.length_eq_one_iff.1 hlen
  have htext : (register r).text.toList = ['V', d] := by simp [text, Register.name, hcs]
  rw [htext]
  show some (register (BitVec.ofNat 4 (Numeral.value 16 [d]))) = _
  rw [hv, BitVec.ofNat_toNat, BitVec.setWidth_eq]

theorem read?_byte (b : Byte) : read? (byte b).text.toList = some (byte b) := by
  obtain ⟨cs, hcs, hlen, hv⟩ := exists_digits 2 b.toNat (by omega) b.isLt
  obtain ⟨c, d, rfl⟩ := List.length_eq_two.1 hlen
  have htext : (byte b).text.toList = ['$', c, d] := by simp [text, Byte.assembly, hcs]
  rw [htext]
  show some (byte (BitVec.ofNat 8 (Numeral.value 16 [c, d]))) = _
  rw [hv, BitVec.ofNat_toNat, BitVec.setWidth_eq]

theorem read?_target (a : Address) : read? (target a).text.toList = some (target a) := by
  obtain ⟨cs, hcs, hlen, hv⟩ := exists_digits 3 a.toNat (by omega) a.isLt
  obtain ⟨b, c, d, rfl⟩ := List.length_eq_three.1 hlen
  have htext : (target a).text.toList = ['$', b, c, d] := by simp [text, Address.assembly, hcs]
  rw [htext]
  show some (target (BitVec.ofNat 12 (Numeral.value 16 [b, c, d]))) = _
  rw [hv, BitVec.ofNat_toNat, BitVec.setWidth_eq]

theorem read?_height (n : Nibble) : read? (height n).text.toList = some (height n) := by
  have hread : ∀ k : Nibble, read? (Numeral.characters 10 0 k.toNat) = some (height k) := by decide
  simpa [text, Numeral.decimal] using hread n

/-- A symbol's text tells the symbol. -/
theorem read?_text (s : Symbol) : read? s.text.toList = some s := by
  cases s with
  | register r => exact read?_register r
  | byte b => exact read?_byte b
  | target a => exact read?_target a
  | height n => exact read?_height n
  | _ => rfl

theorem toList_text_injective : Function.Injective fun s : Symbol => s.text.toList := by
  intro s t h
  have h' := congrArg read? h
  simpa [read?_text] using h'

/-- Symbols are written with digits and a few letters and signs. -/
theorem mem_text {s : Symbol} {c : Char} (h : c ∈ s.text.toList) :
    Numeral.IsDigit c ∨ c ∈ "$IKSTV[]".toList := by
  have hhex : ∀ (sign : String) (width n : Nat), c ∈ (sign ++ Numeral.hex width n).toList →
      Numeral.IsDigit c ∨ c ∈ sign.toList := by
    intro sign width n h
    rw [String.toList_append, List.mem_append, Numeral.hex, Numeral.toList_render] at h
    exact h.symm.imp_left
      (Numeral.isDigit_of_mem_characters (by omega) (Nat.le_refl 16) width n)
  cases s with
  | register r =>
    have hsign : "V".toList ⊆ "$IKSTV[]".toList := by decide
    exact (hhex "V" 1 r.toNat h).imp_right (hsign ·)
  | byte b =>
    have hsign : "$".toList ⊆ "$IKSTV[]".toList := by decide
    exact (hhex "$" 2 b.toNat h).imp_right (hsign ·)
  | target a =>
    have hsign : "$".toList ⊆ "$IKSTV[]".toList := by decide
    exact (hhex "$" 3 a.toNat h).imp_right (hsign ·)
  | height n =>
    rw [text, Numeral.decimal, Numeral.toList_render] at h
    exact .inl (Numeral.isDigit_of_mem_characters (by omega) (by omega) 0 _ h)
  | _ =>
    have hsigns : ∀ t : List Char, t ⊆ "0123456789ABCDEF".toList ++ "$IKSTV[]".toList → c ∈ t →
        Numeral.IsDigit c ∨ c ∈ "$IKSTV[]".toList := fun t ht hc => List.mem_append.1 (ht hc)
    exact hsigns _ (by decide) h

/-- Symbols are written without commas. -/
theorem comma_not_mem_text (s : Symbol) : ',' ∉ s.text.toList ∧ s.text.toList ≠ [] := by
  constructor
  · intro h
    have := mem_text h
    simp [Numeral.IsDigit] at this
  · have hheight : ∀ k : Nibble, Numeral.characters 10 0 k.toNat ≠ [] := by decide
    cases s with
    | register r => simp [text, Register.name]
    | byte b => simp [text, Byte.assembly]
    | target a => simp [text, Address.assembly]
    | height n => simpa [text, Numeral.decimal] using hheight n
    | _ => decide

end Symbol

/-! ## Instructions -/

/-- The symbols an instruction's operands are written with. -/
def symbols : Instruction → List Symbol
  | clear | ret => []
  | jump a | call a => [.target a]
  | skipEqByte x b | skipNeByte x b | loadByte x b | addByte x b | random x b =>
    [.register x, .byte b]
  | skipEq x y | load x y | or x y | and x y | xor x y | add x y | sub x y | shiftRight x y
  | subFrom x y | shiftLeft x y | skipNe x y => [.register x, .register y]
  | loadIndex a => [.index, .target a]
  | jumpOffset a => [.register 0, .target a]
  | draw x y n => [.register x, .register y, .height n]
  | skipDown x | skipUp x => [.register x]
  | readDelay x => [.register x, .delay]
  | awaitKey x => [.register x, .key]
  | setDelay x => [.delay, .register x]
  | setSound x => [.sound, .register x]
  | addIndex x => [.index, .register x]
  | loadGlyph x => [.glyph, .register x]
  | storeDecimal x => [.decimal, .register x]
  | storeRegisters x => [.block, .register x]
  | loadRegisters x => [.register x, .block]

theorem operandTexts_eq (i : Instruction) : i.operandTexts = i.symbols.map Symbol.text := by
  cases i <;> rfl

/-- The instruction of a mnemonic and the symbols behind it. -/
def ofSymbols? (mnemonic : String) (symbols : List Symbol) : Option Instruction :=
  match mnemonic, symbols with
  | "CLS", [] => some .clear
  | "RET", [] => some .ret
  | "JP", [.target a] => some (.jump a)
  | "JP", [.register _, .target a] => some (.jumpOffset a)
  | "CALL", [.target a] => some (.call a)
  | "SE", [.register x, .byte b] => some (.skipEqByte x b)
  | "SE", [.register x, .register y] => some (.skipEq x y)
  | "SNE", [.register x, .byte b] => some (.skipNeByte x b)
  | "SNE", [.register x, .register y] => some (.skipNe x y)
  | "LD", [.register x, .byte b] => some (.loadByte x b)
  | "LD", [.register x, .register y] => some (.load x y)
  | "LD", [.index, .target a] => some (.loadIndex a)
  | "LD", [.register x, .delay] => some (.readDelay x)
  | "LD", [.register x, .key] => some (.awaitKey x)
  | "LD", [.delay, .register x] => some (.setDelay x)
  | "LD", [.sound, .register x] => some (.setSound x)
  | "LD", [.glyph, .register x] => some (.loadGlyph x)
  | "LD", [.decimal, .register x] => some (.storeDecimal x)
  | "LD", [.block, .register x] => some (.storeRegisters x)
  | "LD", [.register x, .block] => some (.loadRegisters x)
  | "ADD", [.register x, .byte b] => some (.addByte x b)
  | "ADD", [.register x, .register y] => some (.add x y)
  | "ADD", [.index, .register x] => some (.addIndex x)
  | "OR", [.register x, .register y] => some (.or x y)
  | "AND", [.register x, .register y] => some (.and x y)
  | "XOR", [.register x, .register y] => some (.xor x y)
  | "SUB", [.register x, .register y] => some (.sub x y)
  | "SHR", [.register x, .register y] => some (.shiftRight x y)
  | "SUBN", [.register x, .register y] => some (.subFrom x y)
  | "SHL", [.register x, .register y] => some (.shiftLeft x y)
  | "RND", [.register x, .byte b] => some (.random x b)
  | "DRW", [.register x, .register y, .height n] => some (.draw x y n)
  | "SKP", [.register x] => some (.skipDown x)
  | "SKNP", [.register x] => some (.skipUp x)
  | _, _ => none

/-- Mnemonic and symbols tell the instruction. -/
theorem ofSymbols?_symbols (i : Instruction) : ofSymbols? i.mnemonic i.symbols = some i := by
  cases i <;> rfl

theorem symbols_inj {i j : Instruction} (h : i.operandText = j.operandText) :
    i.symbols = j.symbols := by
  have hmap : (i.symbols.map fun s => s.text.toList) = j.symbols.map fun s => s.text.toList := by
    apply @Text.intercalate_inj ',' [' ']
    · exact List.forall_mem_map.2 fun s _ => s.comma_not_mem_text
    · exact List.forall_mem_map.2 fun s _ => s.comma_not_mem_text
    · have := congrArg String.toList h
      simpa [operandText, operandTexts_eq, String.toList_intercalate, Function.comp_def] using this
  exact List.map_injective_iff.2 Symbol.toList_text_injective hmap

/-- Instructions with the same mnemonic and the same operands are the same. -/
theorem eq_of_texts {i j : Instruction} (hm : i.mnemonic = j.mnemonic)
    (ho : i.operandText = j.operandText) : i = j := by
  have h := ofSymbols?_symbols i
  rw [hm, symbols_inj ho, ofSymbols?_symbols j] at h
  exact (Option.some.inj h).symm

/-! ## One line -/

theorem toList_join (mnemonic operands : String) :
    (join mnemonic operands).toList =
      mnemonic.toList ++ if operands = "" then [] else ' ' :: operands.toList := by
  unfold join
  split <;> simp

/-- A line is told apart at its first blank. -/
theorem join_inj {m o m' o' : String} (hm : ' ' ∉ m.toList) (hm' : ' ' ∉ m'.toList)
    (h : join m o = join m' o') : m = m' ∧ o = o' := by
  have hlist := congrArg String.toList h
  rw [toList_join, toList_join] at hlist
  have hhead : ∀ t : String, (if t = "" then [] else ' ' :: t.toList) = [] ∨
      (if t = "" then [] else ' ' :: t.toList).head? = some ' ' := by
    intro t
    split <;> simp
  obtain ⟨h₁, h₂⟩ := Text.append_inj_of_not_mem hm hm' (hhead o) (hhead o') hlist
  refine ⟨String.toList_inj.1 h₁, ?_⟩
  by_cases ho : o = "" <;> by_cases ho' : o' = "" <;> simp_all [String.toList_inj]

theorem isUpper_of_mem_mnemonic {i : Instruction} {c : Char} (h : c ∈ i.mnemonic.toList) :
    c.isUpper = true := by
  have hall : i.mnemonic.toList.all Char.isUpper = true := by
    cases i <;> simp only [mnemonic] <;> decide
  exact List.all_eq_true.1 hall c h

theorem blank_not_mem_mnemonic (i : Instruction) : ' ' ∉ i.mnemonic.toList :=
  fun h => absurd (isUpper_of_mem_mnemonic h) (by decide)

/-- Assembly is capital letters, digits and a few signs. -/
theorem not_mem_assembly {c : Char} (hupper : c.isUpper = false) (hdigit : ¬ Numeral.IsDigit c)
    (hsign : c ∉ ", $IKSTV[]".toList) (i : Instruction) : c ∉ i.assembly.toList := by
  have hsigns : "$IKSTV[]".toList ⊆ ", $IKSTV[]".toList ∧ ", ".toList ⊆ ", $IKSTV[]".toList := by
    decide
  have hoperands : c ∉ i.operandText.toList := by
    rw [operandText, operandTexts_eq, String.toList_intercalate, List.map_map]
    refine Text.not_mem_intercalate (fun h => hsign (hsigns.2 h)) (List.forall_mem_map.2 ?_)
    intro s _ h
    exact (Symbol.mem_text h).elim hdigit fun h => hsign (hsigns.1 h)
  rw [assembly, toList_join, List.mem_append, not_or]
  constructor
  · intro h
    rw [isUpper_of_mem_mnemonic h] at hupper
    cases hupper
  · split
    next => exact List.not_mem_nil
    next =>
      refine List.not_mem_cons_of_ne_of_not_mem (fun heq => hsign ?_) hoperands
      rw [heq]
      decide

theorem assembly_injective {i j : Instruction} (h : i.assembly = j.assembly) : i = j := by
  obtain ⟨hmnemonic, hoperands⟩ := join_inj (blank_not_mem_mnemonic i) (blank_not_mem_mnemonic j) h
  exact eq_of_texts hmnemonic hoperands

end Instruction

end Chip8
