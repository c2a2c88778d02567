/-
Where the dialect of a machine shows. Each reading bears on instructions of its
own: clearing the flag on the bitwise operations, moving the index on blocks of
registers, shifting in place on shifts between two registers. A shift of a
register by itself is the same under both readings, in `VF` as well.

A run without instructions that tell two dialects apart is the same in both.
-/
import Chip8.Proofs.Effect

namespace Chip8

/-- Whether an instruction is read differently in two dialects. -/
def Instruction.tellsApart (d e : Dialect) : Instruction → Bool
  | or .. | and .. | xor .. => d.logicClearsFlag != e.logicClearsFlag
  | storeRegisters _ | loadRegisters _ => d.blocksMoveIndex != e.blocksMoveIndex
  | shiftRight x y | shiftLeft x y => x != y && d.shiftsInPlace != e.shiftsInPlace
  | _ => false

namespace Machine

variable {m : Machine} {d : Dialect}

/-! ## One step -/

/-- A register shifted by itself is its own source. -/
theorem shiftSource_withDialect {x y : Register}
    (h : (x != y && m.dialect.shiftsInPlace != d.shiftsInPlace) = false) :
    { m with dialect := d }.shiftSource x y = m.shiftSource x y := by
  rcases Bool.and_eq_false_iff.1 h with hxy | hflag
  · rw [bne_eq_false_iff_eq.1 hxy, shiftSource, shiftSource, ite_self, ite_self]
    rfl
  · rw [shiftSource, shiftSource, bne_eq_false_iff_eq.1 hflag]
    rfl

/-- An instruction that does not tell two dialects apart does the same in both. -/
theorem execute_withDialect {i : Instruction} (h : i.tellsApart m.dialect d = false)
    (address : Word) (press : Option Key) : { m with dialect := d }.execute i address press =
      (m.execute i address press).map fun m' => { m' with dialect := d } := by
  cases i with
  | call a =>
    simp only [execute]
    cases m.stack.push? m.pc <;> rfl
  | ret =>
    simp only [execute]
    cases m.stack.pop? <;> rfl
  | skipDown x | skipUp x =>
    have hsel : { m with dialect := d }.selected x = m.selected x := rfl
    simp only [execute, hsel]
    cases m.selected x with
    | error c => rfl
    | ok b => simp only [Except.map, skipIf_eq]
  | awaitKey x => cases press <;> rfl
  | or x | and x | xor x =>
    have hflag : m.dialect.logicClearsFlag = d.logicClearsFlag := bne_eq_false_iff_eq.1 h
    simp only [execute, yieldLogic_eq, ← hflag]
    rfl
  | shiftRight x y | shiftLeft x y =>
    simp only [execute, shiftSource_withDialect h]
    rfl
  | storeRegisters x | loadRegisters x =>
    have hindex : m.dialect.blocksMoveIndex = d.blocksMoveIndex := bne_eq_false_iff_eq.1 h
    simp only [execute, passBlock_eq, poke, ← hindex]
    rfl
  | _ =>
    simp only [execute, skipIf_eq]
    rfl

theorem step_withDialect {press : Option Key.Reference}
    (h : ∀ e, (m.step press).1 = .ok e → e.instruction.tellsApart m.dialect d = false) :
    { m with dialect := d }.step press =
      ((m.step press).1, { (m.step press).2 with dialect := d }) := by
  refine step_change (fun m => { m with dialect := d }) fun key i m' hdone hx => ?_
  have hexecute := m.tick.advance.execute_withDialect (h _ hdone) m.pc key
  rw [hx] at hexecute
  exact hexecute

/-! ## Many steps -/

/-- **A reading matters at its own instructions alone.** Of machines that differ
in nothing but their dialect, let none of the instructions that one carries out
tell the two dialects apart. Then the other one answers alike, and nothing but
the dialect differs afterwards. -/
theorem dialects_agree (m n : Machine) (presses : List (Option Key.Reference))
    (hn : n = { m with dialect := n.dialect })
    (h : ∀ e, .ok e ∈ m.results presses →
      e.instruction.tellsApart m.dialect n.dialect = false) :
    n.results presses = m.results presses ∧
      n.after presses = { m.after presses with dialect := n.dialect } := by
  induction presses generalizing m n with
  | nil => exact ⟨rfl, hn⟩
  | cons p ps ih =>
    simp only [results, List.mem_cons] at h ⊢
    have hdialect : (m.step p).2.dialect = m.dialect := (m.step_confined p).dialect
    have hstep : n.step p = ((m.step p).1, { (m.step p).2 with dialect := n.dialect }) := by
      rw [hn]
      exact step_withDialect fun e he => h e (.inl he.symm)
    obtain ⟨hresults, hafter⟩ := ih (m.step p).2 { (m.step p).2 with dialect := n.dialect } rfl
      fun e he => hdialect ▸ h e (.inr he)
    rw [after_cons, after_cons, hstep, hresults]
    exact ⟨rfl, hafter⟩

/-- A machine about to halve `V0`. -/
def halving : Machine := trial [0x80, 0x06]

/-- Two dialects that differ in every reading halve a register alike. -/
theorem halving_dialects_agree :
    (∀ e, .ok e ∈ halving.results [none] →
      e.instruction.tellsApart .cosmacVip .modern = false) ∧
    { halving with dialect := .modern }.results [none] = halving.results [none] ∧
    { halving with dialect := .modern }.after [none] =
      { halving.after [none] with dialect := .modern } := by
  have hfetch : Instruction.ofWord? halving.fetch = some (.shiftRight 0 0) := by decide +kernel
  have hstep : (halving.step none).1 = .ok ⟨0x200, .shiftRight 0 0⟩ :=
    congrArg Prod.fst (StepsTo.done rfl hfetch rfl rfl).eq
  have hresults : ∀ e, .ok e ∈ halving.results [none] →
      e.instruction.tellsApart .cosmacVip .modern = false := by
    intro e he
    simp only [results, hstep, List.mem_singleton] at he
    cases he
    rfl
  exact ⟨hresults, dialects_agree halving { halving with dialect := .modern } [none] rfl hresults⟩

end Machine
end Chip8
