/-
Equal operands and their hash keys, hashes being taken as free of collisions. A
quantity and the plain number of its value are equal, but their keys differ, since a
quantity's names its width. That is the only case: every two other operands have the
same key exactly if they are equal. So a set may hold two members that are equal, and
it does exactly if a quantity and the plain number of its value have been put into it.
-/
import Chip8.Quantity.Operand
import Mathlib.Data.List.Pairwise

namespace Chip8.Quantity.Operand

variable {a b o : Operand} {os : List Operand}

/-! ## Equality -/

/-- A quantity stands for the number. -/
inductive HasValue : Operand → Int → Prop
  | address (a : Address) : HasValue (address a) a.toNat
  | nibble (n : Nibble) : HasValue (nibble n) n.toNat

/-- One is a quantity and the other the plain number of its value. -/
def Mixed (a b : Operand) : Prop :=
  ∃ n, (a.HasValue n ∧ b = number n) ∨ (b.HasValue n ∧ a = number n)

theorem Mixed.ne (h : Mixed a b) : a ≠ b := by
  obtain ⟨n, ⟨hvalue, rfl⟩ | ⟨hvalue, rfl⟩⟩ := h
  · rintro rfl
    cases hvalue
  · rintro rfl
    cases hvalue

theorem equal_self (a : Operand) : equal a a = true := by
  cases a with
  | nothing => rfl
  | _ => exact beq_self_eq_true _

theorem equal_of_mixed (h : Mixed a b) : equal a b = true := by
  obtain ⟨n, ⟨hvalue, rfl⟩ | ⟨hvalue, rfl⟩⟩ := h
  · cases hvalue with
    | _ => exact beq_self_eq_true _
  · cases hvalue with
    | _ => exact beq_self_eq_true _

theorem mixed_of_equal (h : equal a b = true) (hne : a ≠ b) : Mixed a b := by
  cases a with
  | address x =>
    cases b with
    | address y => exact absurd (congrArg address (eq_of_beq h)) hne
    | number n => exact ⟨n, .inl ⟨eq_of_beq h ▸ .address x, rfl⟩⟩
    | _ => exact absurd h Bool.false_ne_true
  | nibble x =>
    cases b with
    | nibble y => exact absurd (congrArg nibble (eq_of_beq h)) hne
    | number n => exact ⟨n, .inl ⟨eq_of_beq h ▸ .nibble x, rfl⟩⟩
    | _ => exact absurd h Bool.false_ne_true
  | number n =>
    cases b with
    | address y => exact ⟨n, .inr ⟨eq_of_beq h ▸ .address y, rfl⟩⟩
    | nibble y => exact ⟨n, .inr ⟨eq_of_beq h ▸ .nibble y, rfl⟩⟩
    | number m => exact absurd (congrArg number (eq_of_beq h)) hne
    | _ => exact absurd h Bool.false_ne_true
  | text s =>
    cases b with
    | text t => exact absurd (congrArg text (eq_of_beq h)) hne
    | _ => exact absurd h Bool.false_ne_true
  | nothing =>
    cases b with
    | nothing => exact absurd rfl hne
    | _ => exact absurd h Bool.false_ne_true

theorem Mixed.symm (h : Mixed a b) : Mixed b a := by
  obtain ⟨n, h⟩ := h
  exact ⟨n, h.symm⟩

theorem equal_iff : equal a b = true ↔ a = b ∨ Mixed a b := by
  constructor
  · intro h
    by_cases hab : a = b
    · exact .inl hab
    · exact .inr (mixed_of_equal h hab)
  · rintro (rfl | h)
    · exact equal_self a
    · exact equal_of_mixed h

theorem equal_comm (a b : Operand) : equal a b = equal b a := by
  rw [Bool.eq_iff_iff, equal_iff, equal_iff]
  exact or_congr eq_comm ⟨Mixed.symm, Mixed.symm⟩

/-! ## Hash keys -/

theorem hashKey_inj : a.hashKey = b.hashKey ↔ a = b := by
  constructor
  · intro h
    cases a <;> cases b <;> simp_all [hashKey, BitVec.toNat_inj]
  · rintro rfl
    rfl

theorem hashKey_eq_iff : a.hashKey = b.hashKey ↔ equal a b = true ∧ ¬ Mixed a b := by
  rw [hashKey_inj]
  constructor
  · rintro rfl
    exact ⟨equal_self a, fun h => h.ne rfl⟩
  · intro h
    exact Classical.not_not.1 fun hne => h.2 (mixed_of_equal h.1 hne)

theorem sameMember_iff : sameMember a b = true ↔ a = b := by
  rw [sameMember, Bool.and_eq_true, beq_iff_eq, hashKey_inj]
  exact ⟨And.left, fun h => ⟨h, h ▸ equal_self a⟩⟩

/-! ## Sets -/

theorem mem_filter_not_sameMember : b ∈ os.filter (fun p => !sameMember a p) ↔ b ∈ os ∧ a ≠ b := by
  rw [List.mem_filter, Bool.not_eq_true', ← Bool.not_eq_true, sameMember_iff]

theorem mem_distinct : o ∈ distinct os ↔ o ∈ os := by
  induction os with
  | nil => rfl
  | cons p os ih =>
    rw [distinct, List.mem_cons, List.mem_cons, mem_filter_not_sameMember, ih]
    by_cases h : o = p
    · simp [h]
    · simp [h, Ne.symm h]

theorem nodup_distinct (os : List Operand) : (distinct os).Nodup := by
  induction os with
  | nil => exact List.nodup_nil
  | cons p os ih =>
    rw [distinct, List.nodup_cons]
    exact ⟨fun h => (mem_filter_not_sameMember.1 h).2 rfl, ih.filter _⟩

/-- No two members are equal exactly if no two operands were mixed. -/
theorem pairwise_distinct_iff : (distinct os).Pairwise (fun a b => equal a b = false) ↔
    ¬ ∃ a ∈ os, ∃ b ∈ os, Mixed a b := by
  constructor
  · rintro h ⟨a, ha, b, hb, hmixed⟩
    have : Std.Symm fun a b => equal a b = false := ⟨fun a b h => (equal_comm b a).trans h⟩
    have hunequal := h.forall (mem_distinct.2 ha) (mem_distinct.2 hb) hmixed.ne
    exact absurd ((equal_of_mixed hmixed).symm.trans hunequal) (by decide)
  · intro h
    refine (nodup_distinct os).imp_of_mem fun ha hb hne => Bool.eq_false_iff.2 fun hequal => h ?_
    exact ⟨_, mem_distinct.1 ha, _, mem_distinct.1 hb, mixed_of_equal hequal hne⟩

/-- **Where equal operands hash apart.** Two operands have the same hash key exactly if they are
equal and not a quantity with the plain number of its value. The set of any operands has just these
as members, and no two of its members are equal exactly if no quantity was put into it together
with the plain number of its value. -/
theorem hashKey_failsExactly (a b : Operand) (os : List Operand) :
    (a.hashKey = b.hashKey ↔ equal a b = true ∧ ¬ Mixed a b) ∧
    (∀ o, o ∈ distinct os ↔ o ∈ os) ∧
    ((distinct os).Pairwise (fun a b => equal a b = false) ↔
      ¬ ∃ a ∈ os, ∃ b ∈ os, Mixed a b) :=
  ⟨hashKey_eq_iff, fun _ => mem_distinct, pairwise_distinct_iff⟩

/-- An address and the plain number five are equal, but a set that is given both keeps both. -/
theorem five_isKeptTwice :
    ¬ (∀ a b : Operand, equal a b = true → a.hashKey = b.hashKey) ∧
    ¬ ∀ os : List Operand, (distinct os).Pairwise fun a b => equal a b = false := by
  have hequal : equal (address 5) (number 5) = true := rfl
  have hkeys : (address 5).hashKey ≠ (number 5).hashKey := by decide
  have hset : ¬ (distinct [address 5, number 5]).Pairwise fun a b => equal a b = false := by decide
  exact ⟨fun h => hkeys (h _ _ hequal), fun h => hset (h _)⟩

end Chip8.Quantity.Operand
