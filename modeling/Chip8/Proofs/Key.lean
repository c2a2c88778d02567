/-
The spellings of keys. In upper case and without blanks around it, a text that
refers to a key is the key's name, or its digit, which may stand behind one mark
`0X`. No text spells two keys, and what spells none is refused.
-/
import Chip8.Key
import Chip8.Proofs.Numeral
import Chip8.Proofs.Text.LetterCase

namespace Chip8

open Text (IsForeign MapsUpper isBlank strip upper)

/-! ## Digits -/

namespace Text.DecimalDigit

variable {c : Char} {d : Nat}

theorem value?_lt (h : value? c = some d) : d < 10 := by
  obtain ⟨z, hz, rfl⟩ := Option.map_eq_some_iff.1 h
  have hrange := List.find?_some hz
  simp only [Bool.and_eq_true, decide_eq_true_eq] at hrange
  omega

/-- No letter is a decimal digit. -/
theorem value?_of_isAlpha (h : c.isAlpha = true) : value? c = none := by
  have hzeros : ∀ z ∈ zeros, z + 10 ≤ 65 ∨ 123 ≤ z := by decide
  rw [isAlpha_iff] at h
  refine Option.map_eq_none_iff.2 (List.find?_eq_none.2 fun z hz => ?_)
  have := hzeros z hz
  simp only [Bool.and_eq_true, decide_eq_true_eq]
  omega

end Text.DecimalDigit

namespace Key

variable {c : Char} {cs : List Char} {k l : Key}

/-! ## Labels and names -/

/-- The character that a key is labelled with. -/
def digit (k : Key) : Char := (Nat.digitChar k.toNat).toUpper

theorem toList_label (k : Key) : k.label.toList = [k.digit] := by
  rw [label, Numeral.hex, Numeral.toList_render, Numeral.characters_natCast,
    Numeral.digits_of_lt k.isLt]
  rfl

theorem toList_name (k : Key) : k.name.toList = ['K', k.digit] := by
  rw [name, String.toList_append, toList_label]
  rfl

theorem digitValue_digit (k : Key) : Numeral.digitValue k.digit = k.toNat :=
  Numeral.digitValue_digitChar k.isLt

theorem toNat_digit_lt (k : Key) : k.digit.toNat < 128 := by
  revert k
  decide

/-! ## Spellings -/

/-- A character is the digit on a key: a letter up to `F`, or a decimal digit of any script. -/
def IsDigitOf (c : Char) (k : Key) : Prop :=
  ('A' ≤ c ∧ c ≤ 'F' ∧ c.toNat = k.toNat + 55) ∨ Text.DecimalDigit.value? c = some k.toNat

/-- The texts that spell a key, in upper case and without blanks around them. -/
inductive Spells : List Char → Key → Prop
  | name (k : Key) : Spells k.name.toList k
  | digit {c : Char} {k : Key} (h : IsDigitOf c k) : Spells [c] k
  | marked {c : Char} {k : Key} (h : IsDigitOf c k) : Spells ['0', 'X', c] k

theorem toNat_letter (hA : 'A' ≤ c) (hF : c ≤ 'F') : 65 ≤ c.toNat ∧ c.toNat ≤ 70 := by
  rw [Text.le_iff_toNat_le] at hA hF
  exact ⟨hA, hF⟩

theorem map_hexValue?_eq_some_iff (hc : c.isLower = false) :
    (Text.DecimalDigit.hexValue? c).map (BitVec.ofNat 4) = some k ↔ IsDigitOf c k := by
  have hsmall : ¬ ('a' ≤ c ∧ c ≤ 'f') := by
    rintro ⟨ha, hf⟩
    rw [Text.le_iff_toNat_le] at ha hf
    have ha' : 97 ≤ c.toNat := ha
    have hf' : c.toNat ≤ 102 := hf
    rw [Text.isLower_iff.2 (by omega)] at hc
    cases hc
  rw [Text.DecimalDigit.hexValue?, if_neg hsmall, IsDigitOf]
  split
  next hletter =>
    obtain ⟨hle, hge⟩ := toNat_letter hletter.1 hletter.2
    have halpha : c.isAlpha = true := Text.isAlpha_iff.2 (.inl (by omega))
    have hk := k.isLt
    rw [Option.map_some, Option.some.injEq, Text.DecimalDigit.value?_of_isAlpha halpha,
      ← BitVec.toNat_inj, BitVec.toNat_ofNat]
    simp only [hletter, true_and, reduceCtorEq, or_false]
    omega
  next hletter =>
    rw [Option.map_eq_some_iff]
    constructor
    · rintro ⟨d, hd, rfl⟩
      have hd' := Text.DecimalDigit.value?_lt hd
      exact .inr (by rw [hd, BitVec.toNat_ofNat, Nat.mod_eq_of_lt (by omega)])
    · rintro (⟨hA, hF, -⟩ | hd)
      · exact absurd ⟨hA, hF⟩ hletter
      · exact ⟨k.toNat, hd, by simp⟩

theorem IsDigitOf.isLower (h : IsDigitOf c k) : c.isLower = false := by
  rcases h with ⟨hA, hF, -⟩ | hd
  · have hrange := toNat_letter hA hF
    rw [Bool.eq_false_iff, Ne, Text.isLower_iff]
    omega
  · rw [Bool.eq_false_iff]
    intro hlower
    have halpha : c.isAlpha = true := Text.isAlpha_iff.2 (.inr (Text.isLower_iff.1 hlower))
    rw [Text.DecimalDigit.value?_of_isAlpha halpha] at hd
    cases hd

theorem IsDigitOf.not_isForeign (h : IsDigitOf c k) : ¬ IsForeign c := by
  intro hforeign
  rcases h with ⟨hA, hF, -⟩ | hd
  · have hrange := toNat_letter hA hF
    have := hforeign.not_ascii
    omega
  · rw [hforeign.not_digit] at hd
    cases hd

/-! ## Reading upper case -/

theorem ofName?_eq_some_iff : ofName? cs = some k ↔ cs = k.name.toList := by
  constructor
  · intro h
    simpa [eq_comm] using List.find?_some h
  · rintro rfl
    revert k
    decide

theorem ofName?_of_length (h : cs.length ≠ 2) : ofName? cs = none := by
  rw [Option.eq_none_iff_forall_ne_some]
  intro k hk
  rw [ofName?_eq_some_iff.1 hk, toList_name] at h
  exact h rfl

theorem ofUpper?_of_spells (h : Spells cs k) : ofUpper? cs = some k := by
  cases h with
  | name => rw [ofUpper?, ofName?_eq_some_iff.2 rfl, Option.some_or]
  | @digit c _ h =>
    have hmark : dropMark [c] = [c] := by simp [dropMark]
    rw [ofUpper?, ofName?_of_length (by simp), Option.none_or, hmark]
    exact (map_hexValue?_eq_some_iff h.isLower).2 h
  | marked h =>
    rw [ofUpper?, ofName?_of_length (by simp), Option.none_or]
    exact (map_hexValue?_eq_some_iff h.isLower).2 h

theorem exists_of_ofDigit? (hcs : ∀ c ∈ cs, c.isLower = false) (h : ofDigit? cs = some k) :
    ∃ c, cs = [c] ∧ IsDigitOf c k := by
  unfold ofDigit? at h
  split at h
  next c => exact ⟨c, rfl, (map_hexValue?_eq_some_iff (hcs c List.mem_cons_self)).1 h⟩
  next => cases h

theorem spells_of_ofUpper? (hcs : ∀ c ∈ cs, c.isLower = false) (h : ofUpper? cs = some k) :
    Spells cs k := by
  rw [ofUpper?, Option.or_eq_some_iff] at h
  rcases h with h | ⟨-, h⟩
  · rw [ofName?_eq_some_iff.1 h]
    exact .name k
  · unfold dropMark at h
    split at h
    next rest =>
      obtain ⟨c, rfl, hc⟩ := exists_of_ofDigit? (fun c hc => hcs c (by simp [hc])) h
      exact .marked hc
    next =>
      obtain ⟨c, rfl, hc⟩ := exists_of_ofDigit? hcs h
      exact .digit hc

/-- No text spells two keys. -/
theorem Spells.unique (h : Spells cs k) (h' : Spells cs l) : k = l :=
  Option.some.inj ((ofUpper?_of_spells h).symm.trans (ofUpper?_of_spells h'))

theorem not_isForeign_of_lt (h : c.toNat < 128) : ¬ IsForeign c :=
  fun hforeign => Nat.not_le.2 h hforeign.not_ascii

/-- What spells a key is ASCII, but for a digit of another script. -/
theorem Spells.not_isForeign (h : Spells cs k) (hc : c ∈ cs) : ¬ IsForeign c := by
  cases h with
  | name =>
    simp only [toList_name, List.mem_cons, List.not_mem_nil, or_false] at hc
    rcases hc with rfl | rfl
    · exact not_isForeign_of_lt (by decide)
    · exact not_isForeign_of_lt k.toNat_digit_lt
  | digit h => exact List.mem_singleton.1 hc ▸ h.not_isForeign
  | marked h =>
    simp only [List.mem_cons, List.not_mem_nil, or_false] at hc
    rcases hc with rfl | rfl | rfl
    · exact not_isForeign_of_lt (by decide)
    · exact not_isForeign_of_lt (by decide)
    · exact h.not_isForeign

/-! ## Resolving -/

theorem resolve_number_eq_ok_iff {value : Int} : resolve (.number value) = .ok k ↔ value = k.toNat := by
  have hk := k.isLt
  unfold resolve ofValue?
  by_cases h : 0 ≤ value ∧ value ≤ 0xF
  · simp only [if_pos h, Except.ok.injEq, ← BitVec.toNat_inj, BitVec.toNat_ofInt]
    omega
  · simp only [if_neg h, reduceCtorEq, false_iff]
    omega

theorem resolve_number_eq_error_iff {value : Int} {e : Unresolved} :
    resolve (.number value) = .error e ↔ (value < 0 ∨ 15 < value) ∧ e = .outOfRange value := by
  unfold resolve ofValue?
  by_cases h : 0 ≤ value ∧ value ≤ 0xF
  · have : ¬ (value < 0 ∨ 15 < value) := by omega
    simp [h, this]
  · have : value < 0 ∨ 15 < value := by omega
    simp [h, this, eq_comm]

theorem toOption_resolve_text (text : String) :
    (resolve (.text text)).toOption = ofUpper? (strip (upper text.toList)) := by
  unfold resolve
  dsimp only
  cases ofUpper? (strip (upper text.toList)) <;> rfl

theorem resolve_text_eq_ok_iff {text : String} :
    resolve (.text text) = .ok k ↔ Spells (strip (upper text.toList)) k := by
  have hlower : ∀ c ∈ strip (upper text.toList), c.isLower = false := fun c hc =>
    Text.isLower_of_mem_upper (Text.mem_of_mem_trimBoth hc)
  have hread : resolve (.text text) = .ok k ↔ ofUpper? (strip (upper text.toList)) = some k := by
    rw [← toOption_resolve_text]
    cases resolve (.text text) <;> simp [Except.toOption]
  rw [hread]
  exact ⟨spells_of_ofUpper? hlower, ofUpper?_of_spells⟩

/-- The whole case mapping spells the same keys. -/
theorem spells_flatMap_iff {up : Char → List Char} (h : MapsUpper up) :
    Spells (strip (cs.flatMap up)) k ↔ Spells (strip (upper cs)) k := by
  rcases Text.flatMap_upper_cases h cs with heq | ⟨⟨c, hc, hforeign⟩, d, hd, hforeign'⟩
  · rw [heq]
  · exact iff_of_false (fun hs => hs.not_isForeign hc hforeign)
      fun hs => hs.not_isForeign hd hforeign'

theorem resolve_text_eq_error_iff {text : String} {e : Unresolved} :
    resolve (.text text) = .error e ↔
      (∀ k, ¬ Spells (strip (upper text.toList)) k) ∧ e = .unknown text := by
  simp only [← resolve_text_eq_ok_iff]
  unfold resolve
  dsimp only
  cases ofUpper? (strip (upper text.toList)) with
  | none => simp [eq_comm]
  | some l => simp

/-- Neither blanks around a text nor the case of its ASCII letters matters. -/
theorem toOption_resolve_congr {before later ds : List Char} (hbefore : ∀ c ∈ before, isBlank c = true)
    (hlater : ∀ c ∈ later, isBlank c = true) (h : cs.map Char.toLower = ds.map Char.toLower) :
    (resolve (.text (String.ofList (before ++ cs ++ later)))).toOption =
      (resolve (.text (String.ofList ds))).toOption := by
  rw [toOption_resolve_text, toOption_resolve_text, String.toList_ofList, String.toList_ofList,
    Text.strip_upper_append hbefore hlater, Text.upper_congr h]

/-- A key's label, with or without a mark, and its name. -/
def spellings (k : Key) : List String := [k.label, "0x" ++ k.label, k.name]

theorem resolve_spellings (k : Key) : ∀ text ∈ k.spellings, resolve (.text text) = .ok k := by
  revert k
  decide

/-- **Which references name a key.** A number names the key of its value, up to 15,
and a truth value is 0 or 1. A text names the key that it spells in upper case and
without blanks around it, whatever case mapping that is made with, and one that spells
no key is refused. No text spells two. Blanks around a text and the case of its ASCII
letters do not matter, and every key's label and name are among its spellings. -/
theorem resolve_readsSpellings :
    (∀ (value : Int) (k : Key), resolve (.number value) = .ok k ↔ value = k.toNat) ∧
    (∀ (value : Int) (e : Unresolved), resolve (.number value) = .error e ↔
      (value < 0 ∨ 15 < value) ∧ e = .outOfRange value) ∧
    (∀ b : Bool, resolve (.number b.toInt) = .ok (if b then 1 else 0)) ∧
    (∀ up : Char → List Char, MapsUpper up → ∀ text : String,
      (∀ k, resolve (.text text) = .ok k ↔ Spells (strip (text.toList.flatMap up)) k) ∧
      ∀ e, resolve (.text text) = .error e ↔
        (∀ k, ¬ Spells (strip (text.toList.flatMap up)) k) ∧ e = .unknown text) ∧
    (∀ (cs : List Char) (k l : Key), Spells cs k → Spells cs l → k = l) ∧
    (∀ before cs ds later : List Char, (∀ c ∈ before, isBlank c = true) →
      (∀ c ∈ later, isBlank c = true) → cs.map Char.toLower = ds.map Char.toLower →
      (resolve (.text (String.ofList (before ++ cs ++ later)))).toOption =
        (resolve (.text (String.ofList ds))).toOption) ∧
    ∀ (k : Key) (before cs later : List Char), (∀ c ∈ before, isBlank c = true) →
      (∀ c ∈ later, isBlank c = true) → ∀ text ∈ k.spellings,
      cs.map Char.toLower = text.toList.map Char.toLower →
      resolve (.text (String.ofList (before ++ cs ++ later))) = .ok k := by
  refine ⟨fun value k => resolve_number_eq_ok_iff, fun value e => resolve_number_eq_error_iff,
    by decide, fun up hup text => ?_, fun cs k l => Spells.unique,
    fun before cs ds later => toOption_resolve_congr, ?_⟩
  · simp only [spells_flatMap_iff hup]
    exact ⟨fun k => resolve_text_eq_ok_iff, fun e => resolve_text_eq_error_iff⟩
  · intro k before cs later hbefore hlater text htext hcase
    have hsame := toOption_resolve_congr hbefore hlater hcase
    rw [String.ofList_toList, resolve_spellings k text htext] at hsame
    cases hread : resolve (.text (String.ofList (before ++ cs ++ later))) with
    | ok l =>
      rw [hread] at hsame
      exact congrArg Except.ok (Option.some.inj hsame)
    | error e =>
      rw [hread] at hsame
      cases hsame

/-- A case mapping that knows of one more letter. -/
def accented (c : Char) : List Char := if c = 'é' then ['É'] else Text.upperOf c

/-- A digit of another script behind a mark; a letter that is none; and a name and
a label in lower case, with blanks around them. -/
theorem accented_readsSpellings :
    MapsUpper accented ∧ resolve (.text "0x٣") = .ok 3 ∧
    resolve (.text "é") = .error (.unknown "é") ∧
    (resolve (.text "\u2003kB\n")).toOption = (resolve (.text "KB")).toOption ∧
    resolve (.text " 0Xc\t") = .ok 0xC := by
  have hsmall : IsForeign 'é' := ⟨by decide, rfl, rfl⟩
  have hlarge : IsForeign 'É' := ⟨by decide, rfl, rfl⟩
  have hblank : ∀ c, isBlank c = true → ∀ d ∈ [c], isBlank d = true := by
    intro c hc d hd
    rw [List.mem_singleton.1 hd, hc]
  have haccented : MapsUpper accented := by
    intro c
    unfold accented
    split
    next h =>
      subst h
      exact .inr ⟨hsmall, rfl, 'É', List.mem_singleton_self _, hlarge⟩
    next => exact .inl rfl
  obtain ⟨-, -, -, htext, -, hcongr, hspellings⟩ := resolve_readsSpellings
  refine ⟨haccented, ((htext accented haccented "0x٣").1 3).2 (.marked (.inr (by decide))),
    ((htext accented haccented "é").2 _).2 ⟨fun k hk => ?_, rfl⟩,
    hcongr ['\u2003'] ['k', 'B'] ['K', 'B'] ['\n'] (hblank _ rfl) (hblank _ rfl) (by decide),
    hspellings 0xC [' '] ['0', 'X', 'c'] ['\t'] (hblank _ rfl) (hblank _ rfl) "0xC" (by decide)
      (by decide)⟩
  · exact hk.not_isForeign (List.mem_singleton_self 'É') hlarge

end Key
end Chip8
