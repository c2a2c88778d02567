/-
An instruction by itself and in a step. By itself it meets the machine as it is.
A step that finds its word at the program counter has resolved the key, let the
timers tick and moved the counter before. `HasEffect` states what an instruction
does in both, and it is enough to show it of the instruction by itself, on the
machine as it is and on the machine as the step has left it by then
(`hasEffect`).
-/
import Chip8.Proofs.Decoding
import Chip8.Proofs.Failure

namespace Chip8.Machine

variable {m : Machine} {i : Instruction} {effect : Machine → Machine → Prop}

/-- An instruction is carried out, wherever it was fetched from and whatever key
is pressed, and has an effect, which relates the machines before and after it.
So does a step at the instruction's word, if it is given no reference without a
key; the tick and the move of the program counter come first. -/
structure HasEffect (m : Machine) (i : Instruction) (effect : Machine → Machine → Prop) : Prop where
  execute : ∀ address press, ∃ m', m.execute i address press = .ok m' ∧ effect m m'
  step : ∀ press, NamesKey press → m.fetch = i.encode →
    ∃ m', m.step press = (.ok ⟨m.pc, i⟩, m') ∧ effect m.tick.advance m'

/-- What is carried out is not held up. -/
theorem obstacle?_of_ok {address : Word} {press : Option Key} {m' : Machine}
    (h : m.execute i address press = .ok m') : m.obstacle? i = none := by
  cases ho : m.obstacle? i with
  | none => rfl
  | some c =>
    rw [execute_of_obstacle address press ho] at h
    cases h

theorem hasEffect (h : ∀ n : Machine, n = m ∨ n = m.tick.advance → ∀ address press,
    ∃ m', n.execute i address press = .ok m' ∧ effect n m') : m.HasEffect i effect where
  execute := h m (.inl rfl)
  step press hp hfetch := by
    obtain ⟨key, hkey⟩ := namesKey_iff.1 hp
    obtain ⟨m', hx, heffect⟩ := h m.tick.advance (.inr rfl) m.pc key
    have hword : Instruction.ofWord? m.fetch = some i := by rw [hfetch, Instruction.ofWord?_encode]
    have hobstacle : m.tick.advance.obstacle? i = m.obstacle? i := obstacle?_congr rfl rfl i
    rw [obstacle?_of_ok hx] at hobstacle
    exact ⟨m', (StepsTo.done hkey hword hobstacle.symm hx).eq, heffect⟩

/-! ## Registers as integers -/

/-- The value of a register as an integer. -/
def value (m : Machine) (r : Register) : Int := (m.register r).toNat

end Chip8.Machine
