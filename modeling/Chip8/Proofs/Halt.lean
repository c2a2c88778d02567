/-
A halt is for good. Only a jump to itself sets the flag, and a jump changes no
memory, so a machine that has halted on its own stands on that very jump
(`Resting`), wherever in memory it was reached. From there each step is the same
jump again, and no more than a tick of the timers.
-/
import Chip8.Proofs.Decoding
import Chip8.Proofs.Effect
import Chip8.Proofs.Failure

namespace Chip8

namespace Timers

theorem tick_le (t : Timers) (now : Float) :
    (t.tick now).delay ≤ t.delay ∧ (t.tick now).sound ≤ t.sound := by
  have hdown : ∀ b : Byte, countDown b ≤ b := by decide
  unfold tick
  split
  · exact ⟨hdown t.delay, hdown t.sound⟩
  · exact ⟨BitVec.le_refl _, BitVec.le_refl _⟩

end Timers

theorem Instruction.toNat_of_jump {w : Word} {a : Address} (h : ofWord? w = some (.jump a)) :
    w.toNat = 0x1000 + a.toNat := by
  rw [← encode_of_ofWord? h]
  exact toNat_append_eq 0x1#4 a

namespace Machine

/-- A machine that is halted and stands on a jump to itself. -/
structure Resting (m : Machine) (p : Address) : Prop where
  halted : m.halted = true
  pc : m.pc = p.setWidth 16
  word : Instruction.ofWord? m.fetch = some (.jump p)

variable {m : Machine} {p : Address}

/-! ## At rest -/

/-- At rest a step is the jump, and leaves a tick of the timers behind. -/
theorem Resting.step {press : Option Key.Reference} (h : m.Resting p) (hp : NamesKey press) :
    m.step press = (.ok ⟨p.setWidth 16, .jump p⟩, m.tick) := by
  obtain ⟨key, hkey⟩ := namesKey_iff.1 hp
  have hx : m.tick.advance.execute (.jump p) m.pc key = .ok m.tick := by
    obtain ⟨hhalted, hpc, -⟩ := h
    simp only [execute, advance, tick, hhalted, hpc, Bool.true_or]
  rw [← h.pc]
  exact (StepsTo.done hkey h.word rfl hx).eq

theorem Resting.tick (h : m.Resting p) : m.tick.Resting p := ⟨h.halted, h.pc, h.word⟩

/-- How a machine that has come to rest goes on. -/
structure Rests (m : Machine) (p : Address) (presses : List (Option Key.Reference)) : Prop where
  pc : (m.after presses).pc.toNat = p.toNat
  word : ((m.after presses).memory.readWord p.toNat).toNat = 0x1000 + p.toNat
  results : m.results presses = List.replicate presses.length (.ok ⟨p.setWidth 16, .jump p⟩)
  unchanged : m.after presses = { m with
    timers := (m.after presses).timers
    clock := (m.after presses).clock }
  delay : (m.after presses).timers.delay ≤ m.timers.delay
  sound : (m.after presses).timers.sound ≤ m.timers.sound

theorem Resting.rests_nil (h : m.Resting p) : m.Rests p [] := by
  have hp : m.pc.toNat = p.toNat := by
    rw [h.pc]
    exact BitVec.toNat_setWidth_of_le (by omega)
  have hword : (m.memory.readWord p.toNat).toNat = 0x1000 + p.toNat := by
    rw [← Instruction.toNat_of_jump h.word, ← hp]
    rfl
  exact ⟨hp, hword, rfl, rfl, BitVec.le_refl _, BitVec.le_refl _⟩

theorem Resting.rests {presses : List (Option Key.Reference)} (h : m.Resting p)
    (hp : ∀ press ∈ presses, NamesKey press) : m.Rests p presses := by
  induction presses generalizing m with
  | nil => exact h.rests_nil
  | cons press presses ih =>
    rw [List.forall_mem_cons] at hp
    have hstep := h.step hp.1
    obtain ⟨hpc, hword, hresults, hsame, hdelay, hsound⟩ := ih h.tick hp.2
    obtain ⟨hdelay', hsound'⟩ := m.timers.tick_le m.clock.peek
    have hafter : m.after (press :: presses) = m.tick.after presses := by rw [after_cons, hstep]
    refine ⟨by rw [hafter, hpc], by rw [hafter, hword], ?_, ?_, ?_, ?_⟩
    · rw [Machine.results, hstep, hresults]
      rfl
    · rw [hafter]
      exact hsame
    · rw [hafter]
      exact BitVec.le_trans hdelay hdelay'
    · rw [hafter]
      exact BitVec.le_trans hsound hsound'

/-! ## Coming to rest -/

/-- A step that halts a machine brings it to rest. -/
theorem resting_of_step {press : Option Key.Reference} (hm : m.halted = false)
    (h : (m.step press).2.halted = true) : ∃ p, (m.step press).2.Resting p := by
  rcases (m.step_confined press).halted.1 h with hhalted | ⟨a, hjump, ha⟩
  · rw [hm] at hhalted
    cases hhalted
  have hs := m.stepsTo press
  generalize m.step press = r at h hjump hs
  cases hs with
  | unresolved | undecodable | heldUp => cases hjump
  | done hp hw ho hx =>
    cases hjump
    have hpc : a.setWidth 16 = m.pc :=
      BitVec.eq_of_toNat_eq ((BitVec.toNat_setWidth_of_le (by omega)).trans ha)
    have hfetch : m.fetch = m.memory.readWord m.pc.toNat := rfl
    rw [hfetch, ← hpc] at hw
    -- The jump has not touched the memory it was fetched from.
    cases hx
    exact ⟨a, h, rfl, hw⟩

/-- A step that is given no key has not been taken. -/
theorem step_snd_of_not_namesKey {press : Option Key.Reference} (h : ¬ NamesKey press) :
    (m.step press).2 = m := by
  cases hp : resolvePress press with
  | error e => rw [(StepsTo.unresolved hp).eq]
  | ok key => exact absurd (namesKey_iff.2 ⟨key, hp⟩) h

theorem Resting.step_snd (h : m.Resting p) (press : Option Key.Reference) :
    (m.step press).2.Resting p := by
  by_cases hp : NamesKey press
  · rw [h.step hp]
    exact h.tick
  · rw [step_snd_of_not_namesKey hp]
    exact h

/-- The invariant of a run without a hand on the flag: it is up at rest alone. -/
theorem resting_after (presses : List (Option Key.Reference))
    (hm : m.halted = true → ∃ p, m.Resting p) (h : (m.after presses).halted = true) :
    ∃ p, (m.after presses).Resting p := by
  induction presses generalizing m with
  | nil => exact hm h
  | cons press presses ih =>
    refine ih (fun hhalted => ?_) h
    cases hbefore : m.halted with
    | false => exact resting_of_step hbefore hhalted
    | true =>
      obtain ⟨p, hrest⟩ := hm hbefore
      exact ⟨p, hrest.step_snd press⟩

/-- **A halt is for good.** Let a machine that is not halted be so after some
steps. Then there is an address that it never leaves again, with a jump to that
address in memory there: each further step is this jump, and changes nothing
but the clock and the timers, which only count down. -/
theorem halt_isLasting (m : Machine) (before : List (Option Key.Reference))
    (hm : m.halted = false) (h : (m.after before).halted = true) :
    ∃ p : Address, ∀ later : List (Option Key.Reference), (∀ press ∈ later, NamesKey press) →
      (m.after before).Rests p later := by
  obtain ⟨p, hrest⟩ := resting_after before (fun hhalted => by rw [hm] at hhalted; cases hhalted) h
  exact ⟨p, fun later hlater => hrest.rests hlater⟩

/-- A machine at a jump to itself that lies across the top of memory. -/
def topping : Machine := ((trial []).poke 0xFFF [0x1F, 0xFF]).setPc 0xFFF

theorem topping_halt :
    topping.halted = false ∧ (topping.after [none]).halted = true ∧
    (topping.after [none]).results [none, some (.number 3)] =
      [.ok ⟨0xFFF, .jump 0xFFF⟩, .ok ⟨0xFFF, .jump 0xFFF⟩] := by
  have hhalted : (topping.after [none]).halted = true := by decide +kernel
  have hpc : (topping.after [none]).pc.toNat = 0xFFF := by decide +kernel
  have hkeys : ∀ press ∈ [none, some (.number 3)], NamesKey press := by
    intro press hpress
    simp only [List.mem_cons, List.not_mem_nil, or_false] at hpress
    rcases hpress with rfl | rfl
    · exact namesKey_none
    · exact namesKey_some (rfl : Key.resolve (.number 3) = .ok 3)
  obtain ⟨p, hrests⟩ := halt_isLasting topping [none] rfl hhalted
  have hstand := (hrests [] nofun).pc
  rw [after_nil, hpc] at hstand
  have hp : p = 0xFFF := BitVec.eq_of_toNat_eq hstand.symm
  have hresults := (hrests _ hkeys).results
  rw [hp] at hresults
  exact ⟨rfl, hhalted, hresults⟩

end Machine
end Chip8
