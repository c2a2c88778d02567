/-
The patterns of the instruction table, and that words are decoded by them. A
pattern is four characters: a digit stands for itself, each of the letters `x`,
`y`, `k` and `n` for bits of an operand. Of the 34 patterns a word matches one
or none. If it matches one, it is an instruction of that form whose operands
are the bits at the letters; with these put back in place of the letters the
pattern is the word again.
-/
import Chip8.Proofs.Failure
import Mathlib.Data.List.Forall2

namespace Chip8

/-! ## Digits -/

/-- The hexadecimal digits of a 16-bit number, the most significant first. -/
def hexDigits (w : Nat) : List Nat := [w / 4096 % 16, w / 256 % 16, w / 16 % 16, w % 16]

/-- The number of some hexadecimal digits. -/
def ofHexDigits (digits : List Nat) : Nat := digits.foldl (fun w d => 16 * w + d) 0

theorem ofHexDigits_hexDigits {w : Nat} (h : w < 65536) : ofHexDigits (hexDigits w) = w := by
  simp only [ofHexDigits, hexDigits, List.foldl_cons, List.foldl_nil]
  omega

theorem lt_of_mem_hexDigits {w d : Nat} (h : d ∈ hexDigits w) : d < 16 := by
  simp only [hexDigits, List.mem_cons, List.not_mem_nil, or_false] at h
  omega

theorem toNat_eq_digit (d : Nibble) : d.toNat = d.toNat * 16 ^ 0 + 0 := by omega

theorem hexDigits_nibbles (a b c d : Nibble) :
    hexDigits (a ++ b ++ c ++ d : Word).toNat = [a.toNat, b.toNat, c.toNat, d.toNat] := by
  have hw : (a ++ b ++ c ++ d : Word).toNat =
      16 * (16 * (16 * a.toNat + b.toNat) + c.toNat) + d.toNat := by
    simp only [toNat_append_eq, Nat.reducePow]
  have ha := a.isLt
  have hb := b.isLt
  have hc := c.isLt
  have hd := d.isLt
  rw [hw, hexDigits]
  simp only [List.cons.injEq, and_true]
  omega

theorem hexDigits_target (f : Nibble) (a : Address) : hexDigits (f ++ a : Word).toNat =
    [f.toNat, a.toNat / 256, a.toNat / 16 % 16, a.toNat % 16] := by
  have hw : (f ++ a : Word).toNat = 4096 * f.toNat + a.toNat := toNat_append_eq f a
  have hf := f.isLt
  have ha := a.isLt
  rw [hw, hexDigits]
  simp only [List.cons.injEq, and_true]
  omega

theorem hexDigits_byte (f x : Nibble) (b : Byte) : hexDigits (f ++ x ++ b : Word).toNat =
    [f.toNat, x.toNat, b.toNat / 16, b.toNat % 16] := by
  have hw : (f ++ x ++ b : Word).toNat = 256 * (16 * f.toNat + x.toNat) + b.toNat := by
    simp only [toNat_append_eq, Nat.reducePow]
  have hf := f.isLt
  have hx := x.isLt
  have hb := b.isLt
  rw [hw, hexDigits]
  simp only [List.cons.injEq, and_true]
  omega

/-! ## Patterns -/

namespace Pattern

/-- The digit that a character stands for, unless it is a letter. -/
def literal? (c : Char) : Option Nat := "0123456789ABCDEF".toList.idxOf? c

/-- The letters that stand for bits of operands. -/
def letters : List Char := "xykn".toList

/-- Whether a position of a pattern matches a digit. -/
def admits (c : Char) (d : Nat) : Bool :=
  match literal? c with
  | some v => d == v
  | none => letters.contains c

/-- Whether a pattern matches some digits, position by position. -/
def Matches (p : List Char) (ds : List Nat) : Prop :=
  List.Forall₂ (fun c d => admits c d = true) p ds

/-- The number that the digits at a letter's positions make. -/
def bits (letter : Char) : List Char → List Nat → Nat
  | c :: p, d :: ds =>
    if c == letter then d * 16 ^ p.count letter + bits letter p ds else bits letter p ds
  | _, _ => 0

/-- The digits of a pattern with its letters replaced by values. -/
def fill (value : Char → Nat) : List Char → List Nat
  | [] => []
  | c :: p => (literal? c).getD (value c / 16 ^ p.count c % 16) :: fill value p

variable {p : List Char} {ds : List Nat}

theorem eq_of_admits {c : Char} {v : Nat} {d : Nibble} (h : admits c d.toNat = true)
    (hc : literal? c = some v) : d = BitVec.ofNat 4 v := by
  simp only [admits, hc, beq_iff_eq] at h
  rw [← h, BitVec.ofNat_toNat, BitVec.setWidth_eq]

theorem Matches.mem_letters {c : Char} (h : Matches p ds) (hc : c ∈ p) (hl : literal? c = none) :
    c ∈ letters := by
  induction h with
  | nil => cases hc
  | @cons e d p ds hd _ ih =>
    rw [List.mem_cons] at hc
    rcases hc with rfl | hc
    · simpa [admits, hl] using hd
    · exact ih hc

theorem bits_lt (letter : Char) (hds : ∀ d ∈ ds, d < 16) :
    bits letter p ds < 16 ^ p.count letter := by
  induction p generalizing ds with
  | nil => exact Nat.one_pos
  | cons c p ih =>
    cases ds with
    | nil => exact Nat.pow_pos (by omega)
    | cons d ds =>
      rw [List.forall_mem_cons] at hds
      have hrest := ih hds.2
      rw [bits, List.count_cons]
      split
      · have hd : d * 16 ^ p.count letter ≤ 15 * 16 ^ p.count letter :=
          Nat.mul_le_mul_right _ (by omega)
        rw [Nat.pow_succ]
        omega
      · exact hrest

/-- The bits at the letters, put back, give the digits. What a letter's value
holds beyond its bits plays no part. -/
theorem fill_bits {value : Char → Nat} (h : Matches p ds) (hds : ∀ d ∈ ds, d < 16)
    (hvalue : ∀ c ∈ p, literal? c = none → value c % 16 ^ p.count c = bits c p ds) :
    fill value p = ds := by
  induction h with
  | nil => rfl
  | @cons c d p ds hd _ ih =>
    rw [List.forall_mem_cons] at hds
    rw [fill]
    congr 1
    · cases hl : literal? c with
      | some v =>
        simp only [admits, hl, beq_iff_eq] at hd
        exact hd.symm
      | none =>
        have hc := hvalue c List.mem_cons_self hl
        have hrest := bits_lt (p := p) c hds.2
        rw [List.count_cons_self, Nat.pow_succ, bits, if_pos (beq_self_eq_true c)] at hc
        rw [Option.getD_none, ← Nat.mod_mul_right_div_self, hc, Nat.mul_comm,
          Nat.mul_add_div (Nat.pow_pos (by omega)), Nat.div_eq_of_lt hrest, Nat.add_zero]
    · refine ih hds.2 fun e he hl => ?_
      have hvalue' := hvalue e (List.mem_cons_of_mem c he) hl
      rw [bits, List.count_cons] at hvalue'
      split at hvalue'
      next hce =>
        have hrest := bits_lt (p := p) e hds.2
        have hmod : value e % 16 ^ (p.count e + 1) % 16 ^ p.count e = value e % 16 ^ p.count e :=
          Nat.mod_mod_of_dvd _ (Nat.pow_dvd_pow 16 (Nat.le_succ _))
        rw [← hmod, hvalue', Nat.mul_comm, Nat.mul_add_mod, Nat.mod_eq_of_lt hrest]
      next hce => exact hvalue'

end Pattern

/-! ## Forms -/

namespace Instruction

open Pattern (eq_of_admits fill fill_bits bits_lt)

namespace Form

/-- Whether a word, given as a number, matches the pattern of a form. -/
def Matches (f : Form) (w : Nat) : Prop := Pattern.Matches f.pattern.toList (hexDigits w)

/-- The letters in the pattern of a form. -/
def letters (f : Form) : List Char := Pattern.letters.filter f.pattern.toList.contains

/-- The bits of a word at a letter of a form. -/
def bits (f : Form) (letter : Char) (w : Nat) : Nat :=
  Pattern.bits letter f.pattern.toList (hexDigits w)

end Form

/-- The letter that patterns have for an operand. -/
def Operand.letter : Operand → Char
  | .target _ | .height _ => 'n'
  | .x _ => 'x'
  | .y _ => 'y'
  | .byte _ => 'k'

/-- The operands of an instruction by their letters. -/
def fields (i : Instruction) : List (Char × Nat) := i.operands.map fun o => (o.letter, o.value)

/-- A word that matches the pattern of a form is read as an instruction of that
form, so it matches no other. -/
theorem map_form_of_matches {f : Form} {w : Word} (h : f.Matches w.toNat) :
    (ofWord? w).map form = some f := by
  obtain ⟨a, b, c, d, rfl⟩ := w.eq_append
  rw [Form.Matches, hexDigits_nibbles] at h
  cases f with
  | clear | ret =>
    obtain _ | ⟨ha, _ | ⟨hb, _ | ⟨hc, _ | ⟨hd, _⟩⟩⟩⟩ := h
    obtain rfl := eq_of_admits ha rfl
    obtain rfl := eq_of_admits hb rfl
    obtain rfl := eq_of_admits hc rfl
    obtain rfl := eq_of_admits hd rfl
    rfl
  | jump | call | skipEqByte | skipNeByte | loadByte | addByte | loadIndex | jumpOffset | random
  | draw =>
    obtain _ | ⟨ha, -⟩ := h
    obtain rfl := eq_of_admits ha rfl
    simp only [ofWord?, Word.nibbles_append, Word.byte_append, Word.target_append]
    rfl
  | skipEq | load | or | and | xor | add | sub | shiftRight | subFrom | shiftLeft | skipNe =>
    obtain _ | ⟨ha, _ | ⟨-, _ | ⟨-, _ | ⟨hd, _⟩⟩⟩⟩ := h
    obtain rfl := eq_of_admits ha rfl
    obtain rfl := eq_of_admits hd rfl
    simp only [ofWord?, Word.nibbles_append]
    rfl
  | _ =>
    obtain _ | ⟨ha, _ | ⟨-, _ | ⟨hc, _ | ⟨hd, _⟩⟩⟩⟩ := h
    obtain rfl := eq_of_admits ha rfl
    obtain rfl := eq_of_admits hc rfl
    obtain rfl := eq_of_admits hd rfl
    simp only [ofWord?, Word.nibbles_append, Word.byte_append]
    rfl

/-- The word of an instruction matches the pattern of its form, with the
operands at the letters. -/
theorem matches_encode (i : Instruction) : i.form.Matches i.encode.toNat ∧
    i.fields = i.form.letters.map fun c => (c, i.form.bits c i.encode.toNat) := by
  cases i with
  | clear | ret => exact ⟨.cons rfl (.cons rfl (.cons rfl (.cons rfl .nil))), rfl⟩
  | jump a | call a | loadIndex a | jumpOffset a =>
    have ha : a.toNat = a.toNat / 256 * 16 ^ 2 +
        (a.toNat / 16 % 16 * 16 ^ 1 + (a.toNat % 16 * 16 ^ 0 + 0)) := by omega
    simp only [form, encode, Form.Matches, Form.bits, hexDigits_target]
    exact ⟨.cons rfl (.cons rfl (.cons rfl (.cons rfl .nil))), congrArg (fun v => [('n', v)]) ha⟩
  | skipEqByte x b | skipNeByte x b | loadByte x b | addByte x b | random x b =>
    have hb : b.toNat = b.toNat / 16 * 16 ^ 1 + (b.toNat % 16 * 16 ^ 0 + 0) := by omega
    simp only [form, encode, Form.Matches, Form.bits, hexDigits_byte]
    exact ⟨.cons rfl (.cons rfl (.cons rfl (.cons rfl .nil))),
      congrArg₂ (fun u v => [('x', u), ('k', v)]) (toNat_eq_digit x) hb⟩
  | skipEq x y | load x y | or x y | and x y | xor x y | add x y | sub x y | shiftRight x y
  | subFrom x y | shiftLeft x y | skipNe x y =>
    simp only [form, encode, Form.Matches, Form.bits, hexDigits_nibbles]
    exact ⟨.cons rfl (.cons rfl (.cons rfl (.cons rfl .nil))),
      congrArg₂ (fun u v => [('x', u), ('y', v)]) (toNat_eq_digit x) (toNat_eq_digit y)⟩
  | draw x y n =>
    simp only [form, encode, Form.Matches, Form.bits, hexDigits_nibbles]
    exact ⟨.cons rfl (.cons rfl (.cons rfl (.cons rfl .nil))),
      congr (congrArg₂ (fun u v w => [('x', u), ('y', v), ('n', w)])
        (toNat_eq_digit x) (toNat_eq_digit y)) (toNat_eq_digit n)⟩
  | skipDown x | skipUp x | readDelay x | awaitKey x | setDelay x | setSound x | addIndex x
  | loadGlyph x | storeDecimal x | storeRegisters x | loadRegisters x =>
    simp only [form, encode, Form.Matches, Form.bits, hexDigits_byte]
    exact ⟨.cons rfl (.cons rfl (.cons rfl (.cons rfl .nil))),
      congrArg (fun v => [('x', v)]) (toNat_eq_digit x)⟩

/-- The value of an instruction's operand with a letter. -/
def valueAt (i : Instruction) (letter : Char) : Nat := (i.fields.lookup letter).getD 0

/-- With its operands put in place of the letters the pattern is the word. -/
theorem fill_encode (i : Instruction) :
    fill i.valueAt i.form.pattern.toList = hexDigits i.encode.toNat := by
  obtain ⟨hmatches, hfields⟩ := i.matches_encode
  refine fill_bits hmatches (fun _ => lt_of_mem_hexDigits) fun c hc hl => ?_
  have hletter : c ∈ i.form.letters :=
    List.mem_filter.2 ⟨hmatches.mem_letters hc hl, List.contains_iff_mem.2 hc⟩
  have hvalue : i.valueAt c = i.form.bits c i.encode.toNat := by
    rw [valueAt, hfields, List.lookup_graph _ hletter, Option.getD_some]
  rw [hvalue]
  exact Nat.mod_eq_of_lt (bits_lt c fun _ => lt_of_mem_hexDigits)

theorem matches_iff {f : Form} {w : Word} :
    f.Matches w.toNat ↔ ∃ i, ofWord? w = some i ∧ i.form = f := by
  constructor
  · intro h
    simpa using map_form_of_matches h
  · rintro ⟨i, hw, rfl⟩
    rw [← encode_of_ofWord? hw]
    exact i.matches_encode.1

/-- How an integer whose low 16 bits are the number `w` is decoded. -/
structure DecodedByPattern (n : Int) (w : Nat) : Prop where
  form : ∀ f : Form, (∃ i, decodeInt n = .ok i ∧ i.form = f) ↔ f.Matches w
  unique : ∀ f g : Form, f.Matches w → g.Matches w → f = g
  /-- Every operand is the bits at its letter, and there are no other letters. -/
  operands : ∀ i, decodeInt n = .ok i → i.fields = i.form.letters.map fun c => (c, i.form.bits c w)
  recovered : ∀ i, decodeInt n = .ok i → ofHexDigits (fill i.valueAt i.form.pattern.toList) = w
  undecodable : (∀ f : Form, ¬ f.Matches w) → decodeInt n = .error (
    if w / 4096 = 8 then .unknownOperation 8 ((w % 16 : Nat) : Int) w else .unknownOpcode w)
  registers : ∀ word selector, decodeInt n ≠ .error (.noSuchRegister word selector)

theorem decodeInt_eq_ok_iff {n : Int} {i : Instruction} :
    decodeInt n = .ok i ↔ i.encode = BitVec.ofInt 16 n := by
  rw [decodeInt, decode_eq_ok_iff, ofWord?_eq_some_iff]

theorem eq_undecodable_of_decodeInt {n : Int} {c : Fault.Cause} (h : decodeInt n = .error c) :
    c = Instruction.undecodable (BitVec.ofInt 16 n) := by
  unfold decodeInt decode at h
  split at h <;> cases h
  rfl

theorem decodedByPattern (n : Int) : DecodedByPattern n (BitVec.ofInt 16 n).toNat where
  form f := by
    rw [matches_iff]
    simp only [decodeInt_eq_ok_iff, ofWord?_eq_some_iff]
  unique f g hf hg := by
    have hmap := map_form_of_matches hf
    rw [map_form_of_matches hg] at hmap
    exact (Option.some.inj hmap).symm
  operands i h := by
    rw [← decodeInt_eq_ok_iff.1 h]
    exact i.matches_encode.2
  recovered i h := by
    rw [fill_encode, decodeInt_eq_ok_iff.1 h]
    exact ofHexDigits_hexDigits (BitVec.isLt _)
  undecodable h := by
    cases hd : decodeInt n with
    | ok i =>
      have hform : i.form.Matches i.encode.toNat := i.matches_encode.1
      rw [decodeInt_eq_ok_iff.1 hd] at hform
      exact absurd hform (h i.form)
    | error c => rw [eq_undecodable_of_decodeInt hd, undecodable_eq]
  registers word selector h := by
    have hc := eq_undecodable_of_decodeInt h
    rw [undecodable_eq] at hc
    split at hc <;> cases hc

/-- **Decoding follows the patterns.** Every integer is decoded by what the
patterns say of its low 16 bits. Every instruction is what just one word is
decoded as. -/
theorem decodeInt_followsPatterns :
    (∀ n : Int, DecodedByPattern n (n % 65536).toNat) ∧
    ∀ i : Instruction, ∃! w : Nat, w < 65536 ∧ decodeInt w = .ok i := by
  refine ⟨fun n => ?_, fun i => ?_⟩
  · have hw : (n % 65536).toNat = (BitVec.ofInt 16 n).toNat := by
      rw [BitVec.toNat_ofInt]
      rfl
    rw [hw]
    exact decodedByPattern n
  · refine ⟨i.encode.toNat, ⟨i.encode.isLt, decodeInt_eq_ok_iff.2 (by simp)⟩, ?_⟩
    intro w ⟨hlt, hd⟩
    rw [decodeInt_eq_ok_iff.1 hd, BitVec.ofInt_natCast, BitVec.toNat_ofNat, Nat.mod_eq_of_lt hlt]

/-- A word too wide and a negative one, with the same low bits. -/
theorem draw_followsPattern :
    Form.draw.Matches 0xD125 ∧ (∃ i, decodeInt 0x7D125 = .ok i ∧ i.form = .draw) ∧
    ∃ i, decodeInt (-0x2EDB) = .ok i ∧ i.form = .draw := by
  have hmatches : Form.draw.Matches 0xD125 :=
    .cons rfl (.cons rfl (.cons rfl (.cons rfl .nil)))
  obtain ⟨hdecoded, -⟩ := decodeInt_followsPatterns
  exact ⟨hmatches, ((hdecoded 0x7D125).form .draw).2 hmatches,
    ((hdecoded (-0x2EDB)).form .draw).2 hmatches⟩

end Instruction
end Chip8
