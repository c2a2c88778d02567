/-
Lines that are shown as they are: nothing in them looks like a control
sequence. That holds of numbers and of what is put together from plain parts,
and so of every frame, of every line that a run traces, and of the wording of
every fault in a step.
-/
import Chip8.Machine.Dump
import Chip8.Proofs.Assembly
import Chip8.Proofs.Failure
import Chip8.Tool.Session

namespace Chip8

namespace Tool

/-- A text without an escape character. -/
def IsPlain (text : String) : Prop := Text.ControlSequence.escape ∉ text.toList

instance (text : String) : Decidable (IsPlain text) := inferInstanceAs (Decidable (_ ∉ _))

theorem IsPlain.plain_eq {text : String} (h : IsPlain text) : plain text = text := by
  rw [plain, Text.ControlSequence.remove_of_not_mem h, String.ofList_toList]

theorem sayOut_eq {text : String} (h : IsPlain text) : sayOut text = .out (text ++ "\n") := by
  rw [sayOut, h.plain_eq]

theorem sayErr_eq {text : String} (h : IsPlain text) : sayErr text = .err (text ++ "\n") := by
  rw [sayErr, h.plain_eq]

namespace IsPlain

theorem append_iff {s t : String} : IsPlain (s ++ t) ↔ IsPlain s ∧ IsPlain t := by
  rw [IsPlain, String.toList_append, List.mem_append, not_or]
  rfl

theorem intercalate {sep : String} {ts : List String} (hsep : IsPlain sep)
    (hts : ∀ t ∈ ts, IsPlain t) : IsPlain (String.intercalate sep ts) := by
  rw [IsPlain, String.toList_intercalate]
  exact Text.not_mem_intercalate hsep (List.forall_mem_map.2 hts)

theorem join {ts : List String} (hts : ∀ t ∈ ts, IsPlain t) : IsPlain (String.join ts) := by
  rw [IsPlain, String.toList_join, List.mem_flatMap]
  rintro ⟨t, ht, h⟩
  exact hts t ht h

theorem hex (width : Nat) (n : Int) : IsPlain (Numeral.hex width n) :=
  Numeral.not_mem_hex (by unfold Numeral.IsDigit; decide) (by decide) width n

theorem count (n : Nat) : IsPlain (toString n) := Numeral.not_mem_toString (by decide) n

end IsPlain

theorem isPlain_assembly (i : Instruction) : IsPlain i.assembly :=
  i.not_mem_assembly (by decide) (by unfold Numeral.IsDigit; decide) (by decide)

/-- A line of a trace is shown as it is. -/
theorem sayErr_traceLine (address : Word) (i : Instruction) :
    sayErr ("$" ++ Numeral.hex 3 address.toNat ++ ": " ++ i.assembly) =
      .err ("$" ++ Numeral.hex 3 address.toNat ++ ": " ++ i.assembly ++ "\n") := by
  apply sayErr_eq
  simp only [IsPlain.append_iff, IsPlain.hex, isPlain_assembly, and_true]
  decide

theorem isPlain_frame (s : Screen) : IsPlain (Session.frame s) := by
  have hdashes : IsPlain (String.ofList (List.replicate Screen.width '-')) := by
    rw [IsPlain, String.toList_ofList, List.mem_replicate]
    exact fun h => absurd h.2 (by decide)
  have hborder : IsPlain ("+" ++ String.ofList (List.replicate Screen.width '-') ++ "+") := by
    simp only [IsPlain.append_iff, hdashes, and_true]
    decide
  have hrow : ∀ row : List Bool,
      IsPlain (String.join (row.map fun p => if p then "#" else " ")) := by
    refine fun row => IsPlain.join (List.forall_mem_map.2 fun p _ => ?_)
    cases p <;> decide
  unfold Session.frame Screen.textRows
  refine IsPlain.intercalate (by decide) fun line hline => ?_
  simp only [List.cons_append, List.mem_cons, List.mem_append, List.mem_map, List.not_mem_nil,
    or_false] at hline
  rcases hline with rfl | ⟨text, ⟨row, -, rfl⟩, rfl⟩ | rfl
  · exact hborder
  · simp only [IsPlain.append_iff, hrow, and_true]
    decide
  · exact hborder

/-! ## Dumps -/

theorem isPlain_registerLine (m : Machine) (first : Nat) : IsPlain (m.registerLine first) := by
  refine IsPlain.intercalate (by decide) (List.forall_mem_map.2 fun k _ => ?_)
  simp only [Register.name, Machine.byteText, IsPlain.append_iff, IsPlain.hex, and_true]
  decide

theorem isPlain_slotLine (m : Machine) (slot : Nat) : IsPlain (m.slotLine slot) := by
  have hblanks : ∀ k, IsPlain (String.ofList (List.replicate k ' ')) := by
    intro k
    rw [IsPlain, String.toList_ofList, List.mem_replicate]
    exact fun h => absurd h.2 (by decide)
  simp only [Machine.slotLine, Numeral.padLeft, Machine.wordText, IsPlain.append_iff, IsPlain.hex,
    IsPlain.count, hblanks, and_true, true_and]
  split <;> decide

theorem isPlain_grid (p : Keypad) : IsPlain p.grid := by
  refine IsPlain.intercalate (by decide) (List.forall_mem_map.2 fun row _ => ?_)
  refine IsPlain.intercalate (by decide) (List.forall_mem_map.2 fun k _ => ?_)
  simp only [Keypad.cell, Key.label, IsPlain.append_iff, IsPlain.hex, true_and]
  split <;> decide

theorem isPlain_counterLine (m : Machine) (last : Option Instruction) :
    IsPlain (m.counterLine last) := by
  simp only [Machine.counterLine, Machine.wordText, IsPlain.append_iff, IsPlain.hex, and_true]
  refine ⟨by decide, ?_⟩
  cases last with
  | none => decide
  | some i => exact IsPlain.append_iff.2 ⟨by decide, isPlain_assembly i⟩

theorem isPlain_dump (m : Machine) (last : Option Instruction) : IsPlain (m.dump last) := by
  refine IsPlain.intercalate (by decide) ?_
  simp only [Machine.dumpLines, Machine.byteText, Machine.wordText, List.cons_append,
    List.nil_append, List.map_cons, List.map_nil, List.forall_mem_cons, List.forall_mem_map,
    IsPlain.append_iff, IsPlain.hex, IsPlain.count, isPlain_registerLine, isPlain_grid,
    isPlain_counterLine, isPlain_slotLine, and_true, true_and, implies_true]
  decide

/-! ## Faults -/

theorem isPlain_unknownOpcode (w : Int) : IsPlain (Fault.Cause.unknownOpcode w).description :=
  IsPlain.append_iff.2 ⟨by decide, .hex 4 w⟩

theorem isPlain_noSuchKey (v : Int) : IsPlain (Fault.Cause.noSuchKey v).description :=
  IsPlain.append_iff.2 ⟨by decide, .hex 2 v⟩

theorem isPlain_unknownOperation (family operation w : Int) :
    IsPlain (Fault.Cause.unknownOperation family operation w).description := by
  show IsPlain ("unknown sub-operation $" ++ Numeral.hex 0 operation ++ " for family $" ++
    Numeral.hex 0 family ++ " (word $" ++ Numeral.hex 4 w ++ ")")
  simp only [IsPlain.append_iff, IsPlain.hex, and_true]
  decide

theorem isPlain_undecodable (w : Word) : IsPlain (Instruction.undecodable w).description := by
  rw [Instruction.undecodable_eq]
  split
  · exact isPlain_unknownOperation _ _ _
  · exact isPlain_unknownOpcode _

end Tool

/-- The wording of a fault in a step. -/
theorem Machine.isPlain_message {m : Machine} {press : Option Key.Reference} {f : Fault}
    (h : (m.step press).1 = .error (.fault f)) : Tool.IsPlain f.message := by
  obtain ⟨-, haddress, hcause⟩ := step_eq_fault_iff.1 h
  have hdescription : Tool.IsPlain f.cause.description := by
    rcases hcause with ⟨-, hcause⟩ | ⟨i, -, hcause⟩
    · rw [hcause]
      exact Tool.isPlain_undecodable m.fetch
    · rcases obstacle?_eq_some_iff.1 hcause with ⟨hc, -⟩ | ⟨hc, -⟩ | ⟨x, -, -, hc⟩
      · rw [hc]
        show Tool.IsPlain "stack overflow"
        decide
      · rw [hc]
        show Tool.IsPlain "stack underflow"
        decide
      · rw [hc]
        exact Tool.isPlain_noSuchKey _
  rw [Fault.message, haddress]
  exact Tool.IsPlain.append_iff.2 ⟨Tool.IsPlain.append_iff.2
    ⟨Tool.IsPlain.append_iff.2 ⟨by decide, .hex 4 _⟩, by decide⟩, hdescription⟩

end Chip8
