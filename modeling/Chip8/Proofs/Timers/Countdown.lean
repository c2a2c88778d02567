/-
The timers of a machine that steps. A step reads the clock once and lets the
timers tick before it does anything else, also if it then fails; after that an
instruction may set a counter. So any steps are a list of calls of the timers
(`calls`), and a counter that no instruction sets runs down by the ticks that
counted.
-/
import Chip8.Proofs.Run
import Chip8.Proofs.Timers

namespace Chip8

/-- The instruction that sets a counter from a register. -/
def Timers.Counter.setter : Timers.Counter → Register → Instruction
  | .delay => .setDelay
  | .sound => .setSound

namespace Machine

/-- What an instruction that was carried out has called the timers for. -/
def counterCalls (m : Machine) : Except Failure Executed → List Timers.Call
  | .ok ⟨_, .setDelay x⟩ => [.set .delay (m.register x).toNat]
  | .ok ⟨_, .setSound x⟩ => [.set .sound (m.register x).toNat]
  | _ => []

/-- What a step calls the timers for. -/
def calls (m : Machine) (press : Option Key.Reference) : List Timers.Call :=
  match (m.step press).1 with
  | .error (.unresolvedKey _) => []
  | outcome => .tick m.clock.peek :: m.counterCalls outcome

/-- The clock readings of the steps whose ticks counted. -/
def countedTicks (m : Machine) (presses : List (Option Key.Reference)) : List Float :=
  m.timers.counted (m.along calls presses)

variable {m : Machine} {press : Option Key.Reference} {presses : List (Option Key.Reference)}

/-! ## Single steps -/

theorem after_counterCalls (m : Machine) (t : Timers) (outcome : Except Failure Executed) :
    t.after (m.counterCalls outcome) = match outcome with
      | .ok ⟨_, .setDelay x⟩ => { t with delay := m.register x }
      | .ok ⟨_, .setSound x⟩ => { t with sound := m.register x }
      | _ => t := by
  have hbyte : ∀ x, BitVec.ofInt 8 (m.register x).toNat = m.register x := by
    intro x
    rw [ofInt_toNat, BitVec.setWidth_eq]
  unfold counterCalls
  split <;> simp [Timers.call, Timers.set, Timers.setDelay, Timers.setSound, hbyte]

theorem timers_step (m : Machine) (press : Option Key.Reference) :
    (m.step press).2.timers = m.timers.after (m.calls press) := by
  have h := (m.step_confined press).timers
  rw [h, calls]
  generalize (m.step press).1 = outcome
  have htick : ∀ r, m.timers.after (.tick m.clock.peek :: m.counterCalls r) =
      (m.timers.tick m.clock.peek).after (m.counterCalls r) := fun _ => rfl
  cases outcome with
  | error e =>
    cases e with
    | unresolvedKey key => rfl
    | fault f => rfl
  | ok d =>
    obtain ⟨a, i⟩ := d
    rw [htick, after_counterCalls]
    cases i <;> rfl

/-- A step that is given no wrong key ticks, and then may set a counter. -/
theorem calls_of_namesKey (h : NamesKey press) :
    m.calls press = .tick m.clock.peek :: m.counterCalls (m.step press).1 := by
  obtain ⟨key, hkey⟩ := namesKey_iff.1 h
  unfold calls
  split
  next e he =>
    rw [step_eq_unresolved_iff.1 he] at hkey
    cases hkey
  next => rfl

theorem clock_step (h : NamesKey press) : (m.step press).2.clock = m.clock.advance := by
  obtain ⟨key, hkey⟩ := namesKey_iff.1 h
  have hclock := (m.step_confined press).clock
  rw [hclock]
  split
  next e he =>
    rw [step_eq_unresolved_iff.1 he] at hkey
    cases hkey
  next => rfl

/-- The delay counter is read as the step's own tick has left it. -/
theorem register_of_readDelay {a : Word} {x : Register}
    (h : (m.step press).1 = .ok ⟨a, .readDelay x⟩) :
    (m.step press).2.register x = (m.timers.tick m.clock.peek).delay := by
  have hs := m.stepsTo press
  generalize m.step press = r at h hs
  cases hs with
  | unresolved | undecodable | heldUp => cases h
  | done hp hw ho hx =>
    cases h
    cases hx
    simp [register, yield, tick, advance]

theorem exists_setter_of_mem_calls {k : Timers.Counter} {value : Int}
    (h : .set k value ∈ m.calls press) :
    ∃ a x, (m.step press).1 = .ok ⟨a, k.setter x⟩ ∧ value = (m.register x).toNat := by
  unfold calls counterCalls at h
  split at h
  next => cases h
  next outcome =>
    rw [List.mem_cons] at h
    rcases h with h | h
    · cases h
    · split at h
      next a x heq =>
        cases List.mem_singleton.1 h
        exact ⟨a, x, heq, rfl⟩
      next a x heq =>
        cases List.mem_singleton.1 h
        exact ⟨a, x, heq, rfl⟩
      next => cases h

/-! ## Steps in order -/

theorem timers_after (m : Machine) (presses : List (Option Key.Reference)) :
    (m.after presses).timers = m.timers.after (m.along calls presses) := by
  induction presses generalizing m with
  | nil => rfl
  | cons p ps ih =>
    rw [after_cons, ih, timers_step, along, Timers.after_append]

theorem mem_results_of_step {before later : List (Option Key.Reference)}
    {outcome : Except Failure Executed} (h : ((m.after before).step press).1 = outcome) :
    outcome ∈ m.results (before ++ press :: later) := by
  rw [results_append, results, h]
  exact List.mem_append_right _ List.mem_cons_self

/-- Steps that do not carry out its instruction do not set a counter. -/
theorem set_not_mem_along {k : Timers.Counter}
    (h : ∀ a x, .ok ⟨a, k.setter x⟩ ∉ m.results presses) (value : Int) :
    .set k value ∉ m.along calls presses := by
  intro hmem
  obtain ⟨before, press, later, rfl, hcall⟩ := mem_along.1 hmem
  obtain ⟨a, x, hstep, -⟩ := exists_setter_of_mem_calls hcall
  exact h a x (mem_results_of_step hstep)

/-- The machine of a run is the one after some steps. -/
theorem exists_machine_run (m : Machine) (n : Int) (press : Option Key.Reference) :
    ∃ k, (m.run n press).machine = m.afterSteps press k := by
  have hrun := proceed_iteratesStep m press n.toNat
  cases hf : (m.run n press).failure with
  | none =>
    obtain ⟨-, hmachine, -⟩ := hrun.returned _ (Run.outcome_eq_ok_iff.2 ⟨hf, rfl⟩)
    exact ⟨_, hmachine⟩
  | some e =>
    obtain ⟨-, -, hstep⟩ := hrun.raised e (Run.outcome_eq_error_iff.2 hf)
    refine ⟨(m.run n press).trace.length + 1, ?_⟩
    rw [afterSteps, List.replicate_succ', after_concat]
    exact (congrArg Prod.snd hstep).symm

/-- How a machine uses its timers. -/
structure TicksFirst (m : Machine) : Prop where
  /-- Unless it is given a wrong key, a step is a tick at the next reading of the
  clock and then all the rest, which reads the clock no more. -/
  first : ∀ press, NamesKey press → ∃ key, resolvePress press = .ok key ∧
    m.step press = m.tick.perform key ∧ m.tick.timers = m.timers.tick m.clock.peek ∧
    m.tick.clock = m.clock.advance ∧ (m.step press).2.clock = m.clock.advance
  /-- What comes after the tick may set a counter, but does not tick again. -/
  once : ∀ press, NamesKey press →
    (m.step press).2.timers = (m.timers.tick m.clock.peek).after (m.counterCalls (m.step press).1) ∧
    ∀ now, .tick now ∉ m.counterCalls (m.step press).1
  read : ∀ press a x, (m.step press).1 = .ok ⟨a, .readDelay x⟩ →
    (m.step press).2.register x = (m.timers.tick m.clock.peek).delay
  /-- Over steps that do not set it, a counter loses one for every tick that
  counts, down to zero. -/
  lowered : ∀ k presses, (∀ a x, .ok ⟨a, k.setter x⟩ ∉ m.results presses) →
    (((m.after presses).timers.counter k).toNat : Int) =
      max 0 (((m.timers.counter k).toNat : Int) - (m.countedTicks presses).length)
  /-- A run is some of those steps. -/
  run : ∀ n press, ∃ k, (m.run n press).machine = m.after (List.replicate k press)

theorem ticksFirst (m : Machine) : m.TicksFirst where
  first press h := by
    obtain ⟨key, hkey⟩ := namesKey_iff.1 h
    have hstep : m.step press = m.tick.perform key := by rw [step, hkey]
    exact ⟨key, hkey, hstep, rfl, rfl, clock_step h⟩
  once press h := by
    refine ⟨by rw [timers_step, calls_of_namesKey h]; rfl, fun now => ?_⟩
    unfold counterCalls
    split <;> simp
  read press a x h := register_of_readDelay h
  lowered k presses h := by
    rw [timers_after]
    exact (Timers.runsDown m.timers).lowered k _ (set_not_mem_along h)
  run n press := exists_machine_run m n press

/-- **The timers run down by the ticks that count.** At every call, whatever the
readings, a tick counts unless less than a sixtieth of a second has passed since
the last one that did, and since the start if there was none; it lowers each
counter by one, and a counter that is not set loses one for each such tick, down
to zero. Every step of a machine ticks once, before all else, and also if it
fails. So over steps that do not set it a counter has lost what has counted. -/
theorem timers_runDown :
    (∀ (start now : Float) (calls : List Timers.Call),
      ((Timers.start start).after calls).due now = true ↔
        ¬ (now - ((Timers.start start).counted calls).getLastD start < 1.0 / 60.0)) ∧
    (∀ t : Timers, t.RunsDown) ∧ ∀ m : Machine, m.TicksFirst := by
  refine ⟨?_, Timers.runsDown, ticksFirst⟩
  intro start now calls
  exact (Timers.runsDown (Timers.start start)).measured calls now

/-- A machine that reads its delay timer and then meets words that are no
instructions, with one tick too early and two in time. -/
def faltering : Machine :=
  { trial [0xF1, 0x07] with timers := ⟨1, 9, 0⟩, clock := .cycle 0 [0.01, 0.02, 0.04] }

/-- Both failing steps tick, and the delay timer stays at zero. -/
theorem faltering_runsDown :
    (∀ k a x, .ok ⟨a, Timers.Counter.setter k x⟩ ∉ faltering.results [none, none, none]) ∧
    faltering.countedTicks [none, none, none] = [0.02, 0.04] ∧
    (faltering.after [none, none, none]).timers.delay.toNat = 0 ∧
    (faltering.after [none, none, none]).timers.sound.toNat = 7 ∧
    (faltering.step none).2.register 1 = 1 := by
  have hdone : (faltering.results [none, none, none]).map Except.toOption =
      [some ⟨0x200, .readDelay 1⟩, none, none] := by decide +kernel
  have hcounted : faltering.countedTicks [none, none, none] = [0.02, 0.04] := by decide +kernel
  have hsetter : ∀ k a x,
      .ok ⟨a, Timers.Counter.setter k x⟩ ∉ faltering.results [none, none, none] := by
    intro k a x hmem
    have hmem := List.mem_map_of_mem (f := Except.toOption) hmem
    rw [hdone] at hmem
    cases k <;> simp [Except.toOption, Timers.Counter.setter] at hmem
  have hword : Instruction.ofWord? faltering.fetch = some (.readDelay 1) := by decide +kernel
  have hmachine := timers_runDown.2.2 faltering
  have hdelay := hmachine.lowered .delay _ (hsetter .delay)
  have hsound := hmachine.lowered .sound _ (hsetter .sound)
  rw [hcounted] at hdelay hsound
  have hread := hmachine.read none faltering.pc 1 (step_eq_ok_iff.2 ⟨namesKey_none, rfl, hword, rfl⟩)
  exact ⟨hsetter, hcounted, Int.natCast_inj.1 hdelay, Int.natCast_inj.1 hsound,
    hread.trans (by decide +kernel)⟩

end Machine
end Chip8
