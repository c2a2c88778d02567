/-
The two ways in which keys reach a program. What the keypad holds down shows at
the two skips on keys, the key that is pressed during a step shows at the wait
for a key, and neither shows anywhere else. So a key that is held is never
taken for a press, and no press is ever taken for a key that is held.
-/
import Chip8.Proofs.Effect
import Chip8.Proofs.Failure

namespace Chip8

/-- Whether an instruction looks at the keypad. -/
def Instruction.looksAtKeypad : Instruction → Bool
  | skipDown _ | skipUp _ => true
  | _ => false

namespace Machine

variable {m : Machine}

/-! ## Keys that are held -/

theorem execute_withKeypad {p : Keypad} {i : Instruction} (h : i.looksAtKeypad = false)
    (address : Word) (press : Option Key) : { m with keypad := p }.execute i address press =
      (m.execute i address press).map fun m' => { m' with keypad := p } := by
  cases i with
  | skipDown | skipUp => cases h
  | call a =>
    simp only [execute]
    cases m.stack.push? m.pc <;> rfl
  | ret =>
    simp only [execute]
    cases m.stack.pop? <;> rfl
  | awaitKey x => cases press <;> rfl
  | _ =>
    simp only [execute, skipIf_eq, yieldLogic_eq, passBlock_eq]
    rfl

/-- A skip that meets no key fails whatever is held, so only a step that is
carried out can look at the keypad. -/
theorem step_withKeypad {p : Keypad} {press : Option Key.Reference}
    (h : ∀ e, (m.step press).1 = .ok e → e.instruction.looksAtKeypad = false) :
    { m with keypad := p }.step press =
      ((m.step press).1, { (m.step press).2 with keypad := p }) := by
  refine step_change (fun m => { m with keypad := p }) fun key i m' hdone hx => ?_
  have hexecute := m.tick.advance.execute_withKeypad (p := p) (h _ hdone) m.pc key
  rw [hx] at hexecute
  exact hexecute

theorem after_withKeypad {p : Keypad} {presses : List (Option Key.Reference)}
    (h : ∀ e, .ok e ∈ m.results presses → e.instruction.looksAtKeypad = false) :
    { m with keypad := p }.results presses = m.results presses ∧
      { m with keypad := p }.after presses = { m.after presses with keypad := p } := by
  induction presses generalizing m with
  | nil => exact ⟨rfl, rfl⟩
  | cons press presses ih =>
    simp only [results, List.mem_cons] at h
    have hstep : { m with keypad := p }.step press =
        ((m.step press).1, { (m.step press).2 with keypad := p }) :=
      step_withKeypad fun e he => h e (.inl he.symm)
    obtain ⟨hresults, hafter⟩ := ih fun e he => h e (.inr he)
    rw [results, results, after_cons, after_cons, hstep]
    exact ⟨congrArg (_ :: ·) hresults, hafter⟩

/-- No step touches the keypad. -/
theorem keypad_after (m : Machine) (presses : List (Option Key.Reference)) :
    (m.after presses).keypad = m.keypad := by
  induction presses generalizing m with
  | nil => rfl
  | cons press presses ih => rw [after_cons, ih, (m.step_confined press).keypad]

/-! ## Keys that are pressed -/

theorem execute_withPress {i : Instruction} (h : ∀ x, i ≠ .awaitKey x) (address : Word)
    (p q : Option Key) : m.execute i address q = m.execute i address p := by
  cases i with
  | awaitKey x => exact absurd rfl (h x)
  | _ => rfl

/-- Which key is pressed, if any, is all the same to a step that is not at a wait. -/
theorem step_withPress {p q : Option Key.Reference} (hp : NamesKey p) (hq : NamesKey q)
    (h : ∀ x, Instruction.ofWord? m.fetch ≠ some (.awaitKey x)) : m.step q = m.step p := by
  obtain ⟨k, hk⟩ := namesKey_iff.1 hq
  apply StepsTo.eq
  have hs := m.stepsTo p
  generalize m.step p = r at hs
  cases hs with
  | unresolved hu =>
    obtain ⟨key, hkey⟩ := namesKey_iff.1 hp
    rw [hu] at hkey
    cases hkey
  | undecodable _ hw => exact .undecodable hk hw
  | heldUp _ hw ho => exact .heldUp hk hw ho
  | @done key i m' _ hw ho hx =>
    have hi : ∀ x, i ≠ .awaitKey x := fun x hx => h x (hx ▸ hw)
    exact .done hk hw ho ((execute_withPress hi m.pc key k).trans hx)

/-- **Held keys and pressed keys do not leak.** Machines that differ in nothing
but the keys held down answer alike as long as no skip on a key is carried out,
and nothing but those keys, which stay what they were, differs afterwards. At
any step of a run that is not at a wait for a key, another key could have been
pressed, or none, with the same answer, the same machine and the same rest of
the run. -/
theorem keys_doNotLeak (m : Machine) :
    (∀ (n : Machine) (presses : List (Option Key.Reference)), n = { m with keypad := n.keypad } →
      (∀ e, .ok e ∈ m.results presses → e.instruction.looksAtKeypad = false) →
      n.results presses = m.results presses ∧
      n.after presses = { m.after presses with keypad := n.keypad } ∧
      (m.after presses).keypad = m.keypad ∧ (n.after presses).keypad = n.keypad) ∧
    ∀ (before later : List (Option Key.Reference)) (p q : Option Key.Reference),
      NamesKey p → NamesKey q →
      (∀ x, Instruction.ofWord? (m.after before).fetch ≠ some (.awaitKey x)) →
      (m.after before).step q = (m.after before).step p ∧
      m.results (before ++ q :: later) = m.results (before ++ p :: later) ∧
      m.after (before ++ q :: later) = m.after (before ++ p :: later) := by
  refine ⟨fun n presses hn h => ?_, fun before later p q hp hq h => ?_⟩
  · obtain ⟨hresults, hafter⟩ := after_withKeypad (p := n.keypad) h
    rw [← hn] at hresults hafter
    exact ⟨hresults, hafter, m.keypad_after presses, n.keypad_after presses⟩
  · have hstep := step_withPress hp hq h
    refine ⟨hstep, ?_, ?_⟩
    · rw [results_append, results_append, results, results, hstep]
    · rw [after_append, after_append, after_cons, after_cons, hstep]

/-- A machine about to wait for a key and then to load a byte. -/
def waiting : Machine := trial [0xF0, 0x0A, 0x61, 0x02]

/-- At the wait a held key is no press; behind it a press is of no use. -/
theorem waiting_keys :
    (∀ e, .ok e ∈ waiting.results [some (.number 7), none] →
      e.instruction.looksAtKeypad = false) ∧
    { waiting with keypad := Keypad.released.set 5 true }.results [some (.number 7), none] =
      waiting.results [some (.number 7), none] ∧
    (∀ x, Instruction.ofWord? (waiting.after [some (.number 7)]).fetch ≠ some (.awaitKey x)) ∧
    (waiting.after [some (.number 7)]).step (some (.text "A")) =
      (waiting.after [some (.number 7)]).step none := by
  have hfirst : Instruction.ofWord? waiting.fetch = some (.awaitKey 0) := by decide +kernel
  have hsecond : Instruction.ofWord? (waiting.after [some (.number 7)]).fetch =
      some (.loadByte 1 2) := by decide +kernel
  have hlooks : ∀ e, .ok e ∈ waiting.results [some (.number 7), none] →
      e.instruction.looksAtKeypad = false := by
    intro e he
    simp only [results, List.mem_cons, List.not_mem_nil, or_false] at he
    rcases he with he | he
    · have hfetch := (step_eq_ok_iff.1 he.symm).2.2.1
      rw [← Option.some.inj (hfirst.symm.trans hfetch)]
      rfl
    · have hfetch := (step_eq_ok_iff.1 he.symm).2.2.1
      rw [← Option.some.inj (hsecond.symm.trans hfetch)]
      rfl
  have hwait : ∀ x, Instruction.ofWord? (waiting.after [some (.number 7)]).fetch ≠
      some (.awaitKey x) := by
    intro x hx
    rw [hsecond] at hx
    cases hx
  have hkey : Key.resolve (.text "A") = .ok 0xA := rfl
  obtain ⟨hheld, hpressed⟩ := keys_doNotLeak waiting
  exact ⟨hlooks, (hheld _ _ rfl hlooks).1, hwait,
    (hpressed [some (.number 7)] [] none _ namesKey_none (namesKey_some hkey) hwait).1⟩

end Machine
end Chip8
