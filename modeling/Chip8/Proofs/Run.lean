/-
A run is its steps. It takes one after another with the same key reference,
keeps what was carried out, and ends at its limit, at a halt or at a failure,
whichever comes first. A run that is cut in two is the whole run: the second
part takes up where the first one ended, and a failure ends both.
-/
import Chip8.Proofs.Effect
import Chip8.Proofs.Failure
import Chip8.Proofs.Steps

namespace Chip8

namespace Run

/-! ## Runs in parts -/

theorem proceed_add (r : Run) (press : Option Key.Reference) (a b : Nat) :
    r.proceed press (a + b) = (r.proceed press a).proceed press b := by
  induction a generalizing r with
  | zero => rw [Nat.zero_add, proceed]
  | succ a ih =>
    rw [Nat.succ_add, proceed, proceed]
    by_cases h : r.isOver = true
    · rw [if_pos h, if_pos h, proceed_of_isOver h]
    · rw [if_neg h, if_neg h, ih]

/-- A run behind steps that were carried out before it. -/
def behind (r : Run) (earlier : List Executed) : Run := { r with trace := r.trace ++ earlier }

theorem advance_behind (r : Run) (earlier : List Executed) (press : Option Key.Reference) :
    (r.behind earlier).advance press = (r.advance press).behind earlier := by
  have hmachine : (r.behind earlier).machine = r.machine := rfl
  unfold advance
  rw [hmachine]
  split <;> rfl

theorem proceed_behind (r : Run) (earlier : List Executed) (press : Option Key.Reference)
    (limit : Nat) : (r.behind earlier).proceed press limit =
      (r.proceed press limit).behind earlier := by
  induction limit generalizing r with
  | zero => rfl
  | succ limit ih =>
    have hover : (r.behind earlier).isOver = r.isOver := rfl
    rw [proceed, proceed, hover]
    split
    · rfl
    · rw [advance_behind, ih]

theorem eq_behind {r : Run} (h : r.failure = none) :
    r = behind { machine := r.machine } r.trace := by
  obtain ⟨machine, trace, failure⟩ := r
  cases h
  rfl

theorem outcome_behind (r : Run) (earlier : List Executed) :
    (r.behind earlier).outcome = r.outcome.map (earlier.length + ·) := by
  unfold outcome
  cases hf : r.failure with
  | some e => simp [behind, hf, Except.map]
  | none => simp [behind, hf, Except.map, steps, Nat.add_comm]

theorem outcome_eq_ok_iff {r : Run} {k : Nat} :
    r.outcome = .ok k ↔ r.failure = none ∧ r.trace.length = k := by
  unfold outcome
  cases r.failure <;> simp [steps]

theorem outcome_eq_error_iff {r : Run} {e : Machine.Failure} :
    r.outcome = .error e ↔ r.failure = some e := by
  unfold outcome
  cases r.failure <;> simp

end Run

namespace Machine

/-! ## Runs and steps -/

/-- The machine after so many steps with the same key reference. -/
def afterSteps (m : Machine) (press : Option Key.Reference) (k : Nat) : Machine :=
  m.after (List.replicate k press)

theorem afterSteps_succ (m : Machine) (press : Option Key.Reference) (k : Nat) :
    m.afterSteps press (k + 1) = (m.step press).2.afterSteps press k := rfl

/-- What a run of at most `limit` steps is, told by the steps. -/
structure IteratesStep (m : Machine) (press : Option Key.Reference) (limit : Nat) (r : Run) :
    Prop where
  /-- The trace shows, in order, the steps that were carried out, each by a
  machine that was not halted. -/
  counted : ∀ j d, r.trace.reverse[j]? = some d → (m.afterSteps press j).halted = false ∧
    ((m.afterSteps press j).step press).1 = .ok d ∧ d.address = (m.afterSteps press j).pc
  /-- A run that returns has done as many steps as it may, or ended at a halt. -/
  returned : ∀ k, r.outcome = .ok k → r.trace.length = k ∧ r.machine = m.afterSteps press k ∧
    k ≤ limit ∧ (k < limit → r.machine.halted = true)
  /-- A run that fails does so at the step behind those in the trace. -/
  raised : ∀ e, r.outcome = .error e → r.trace.length < limit ∧
    (m.afterSteps press r.trace.length).halted = false ∧
    (m.afterSteps press r.trace.length).step press = (.error e, r.machine)

variable {m : Machine} {press : Option Key.Reference} {limit : Nat}

theorem iteratesStep_self (h : 0 < limit → m.halted = true) :
    m.IteratesStep press limit { machine := m } where
  counted j d hj := by simp at hj
  returned k hk := by
    obtain ⟨-, rfl⟩ := Run.outcome_eq_ok_iff.1 hk
    exact ⟨rfl, rfl, Nat.zero_le limit, h⟩
  raised e he := by
    cases Run.outcome_eq_error_iff.1 he

theorem iteratesStep_of_error {e : Failure} {m' : Machine} (hm : m.halted = false)
    (hs : m.step press = (.error e, m')) (hlimit : 0 < limit) :
    m.IteratesStep press limit { machine := m', failure := some e } where
  counted j d hj := by simp at hj
  returned k hk := by
    cases (Run.outcome_eq_ok_iff.1 hk).1
  raised e' he := by
    cases Run.outcome_eq_error_iff.1 he
    exact ⟨hlimit, hm, hs⟩

/-- One more step at the front. -/
theorem IteratesStep.cons {d : Executed} {m' : Machine} {r : Run} (hm : m.halted = false)
    (hs : m.step press = (.ok d, m')) (h : m'.IteratesStep press limit r) :
    m.IteratesStep press (limit + 1) (r.behind [d]) := by
  have hd : (m.step press).1 = .ok d := congrArg Prod.fst hs
  have hm' : (m.step press).2 = m' := congrArg Prod.snd hs
  have hlength : (r.behind [d]).trace.length = r.trace.length + 1 := List.length_append
  have hreverse : (r.behind [d]).trace.reverse = d :: r.trace.reverse := List.reverse_append
  have hsucc : ∀ k, m.afterSteps press (k + 1) = m'.afterSteps press k := by
    intro k
    rw [afterSteps_succ, hm']
  refine { counted := fun j e hj => ?_, returned := fun k hk => ?_, raised := fun e he => ?_ }
  · rw [hreverse] at hj
    cases j with
    | zero =>
      cases hj
      exact ⟨hm, hd, address_of_ok hd⟩
    | succ j =>
      rw [hsucc]
      exact h.counted j e hj
  · obtain ⟨hf, hk⟩ := Run.outcome_eq_ok_iff.1 hk
    have hr : r.outcome = .ok r.trace.length := Run.outcome_eq_ok_iff.2 ⟨hf, rfl⟩
    obtain ⟨-, hmachine, hle, hhalt⟩ := h.returned _ hr
    rw [← hk, hlength, hsucc]
    exact ⟨rfl, hmachine, by omega, fun hlt => hhalt (by omega)⟩
  · have hf : (r.behind [d]).failure = some e := Run.outcome_eq_error_iff.1 he
    obtain ⟨hlt, hawake, hfail⟩ := h.raised e (Run.outcome_eq_error_iff.2 hf)
    rw [hlength, hsucc]
    exact ⟨by omega, hawake, hfail⟩

theorem proceed_iteratesStep (m : Machine) (press : Option Key.Reference) (limit : Nat) :
    m.IteratesStep press limit (Run.proceed press limit { machine := m }) := by
  induction limit generalizing m with
  | zero => exact iteratesStep_self fun h => absurd h (Nat.lt_irrefl 0)
  | succ limit ih =>
    have hover : ({ machine := m } : Run).isOver = m.halted := rfl
    rw [Run.proceed, hover]
    cases hm : m.halted with
    | true => exact iteratesStep_self fun _ => hm
    | false =>
      rw [if_neg Bool.false_ne_true, Run.advance]
      split
      next d m' hs =>
        have htrace : ({ machine := m', trace := [d] } : Run) =
            Run.behind { machine := m' } [d] := rfl
        rw [htrace, Run.proceed_behind]
        exact (ih m').cons hm hs
      next e m' hs =>
        rw [Run.proceed_of_isOver rfl]
        exact iteratesStep_of_error hm hs (Nat.succ_pos limit)

/-- A run leaves the screen of its last step, also if the next one has failed. -/
theorem IteratesStep.screen {r : Run} (h : m.IteratesStep press limit r) :
    r.machine.screen = (m.afterSteps press r.steps).screen := by
  cases hf : r.failure with
  | none =>
    obtain ⟨-, hmachine, -⟩ := h.returned r.steps (Run.outcome_eq_ok_iff.2 ⟨hf, rfl⟩)
    rw [hmachine]
  | some e =>
    obtain ⟨-, -, hstep⟩ := h.raised e (Run.outcome_eq_error_iff.2 hf)
    have hscreen := (shown_of_error (congrArg Prod.fst hstep)).1
    rw [hstep] at hscreen
    exact hscreen

/-- A run that fails does not halt. -/
theorem IteratesStep.not_halted {r : Run} {e : Failure} (h : m.IteratesStep press limit r)
    (hf : r.failure = some e) : r.machine.halted = false := by
  obtain ⟨-, hawake, hstep⟩ := h.raised e (Run.outcome_eq_error_iff.2 hf)
  have hhalted := (shown_of_error (congrArg Prod.fst hstep)).2
  rw [hstep] at hhalted
  exact hhalted.trans hawake

theorem run_of_isOver {n : Int} (h : m.halted = true ∨ n ≤ 0) :
    m.run n press = { machine := m } := by
  rcases h with hm | hn
  · have hover : ({ machine := m } : Run).isOver = true := hm
    exact Run.proceed_of_isOver hover press n.toNat
  · rw [run, Int.toNat_of_nonpos hn, Run.proceed]

/-- A jump to itself ends a run. -/
theorem run_of_selfJump {a : Address} {n : Int} (hm : m.halted = false) (hn : 0 < n)
    (hpress : NamesKey press) (hpc : a.toNat = m.pc.toNat)
    (hw : Instruction.ofWord? m.fetch = some (.jump a)) :
    m.run n press = { machine := (m.step press).2, trace := [⟨m.pc, .jump a⟩] } := by
  have hok : (m.step press).1 = .ok ⟨m.pc, .jump a⟩ := step_eq_ok_iff.2 ⟨hpress, rfl, hw, rfl⟩
  have hstep : m.step press = (.ok ⟨m.pc, .jump a⟩, (m.step press).2) := Prod.ext hok rfl
  have hhalted : (m.step press).2.halted = true :=
    (m.step_confined press).halted.2 (.inr ⟨a, hok, hpc⟩)
  obtain ⟨k, hk⟩ : ∃ k, n.toNat = k + 1 := Nat.exists_eq_succ_of_ne_zero (by omega)
  have hover : ({ machine := m } : Run).isOver = false := hm
  have hadvance : ({ machine := m } : Run).advance press =
      { machine := (m.step press).2, trace := [⟨m.pc, .jump a⟩] } := by
    rw [Run.advance, hstep]
  have hover' : (Run.mk (m.step press).2 [⟨m.pc, .jump a⟩] none).isOver = true := hhalted
  rw [run, hk, Run.proceed, hover, if_neg Bool.false_ne_true, hadvance,
    Run.proceed_of_isOver hover']

/-- **A run is its steps, and runs compose.** Every run is what its steps are,
up to its limit, a halt or a failure; a limit below zero counts as zero. A run
of `a + b` steps is a run of `a` steps and, unless that one fails, a run of `b`
steps from there, with the steps counted and traced together. A machine that is
halted does nothing, nor does any machine within no steps, whatever the key. -/
theorem run_iterates_step (m : Machine) (press : Option Key.Reference) :
    (∀ n : Int, m.IteratesStep press n.toNat (m.run n press)) ∧
    (∀ a b : Int, 0 ≤ a → 0 ≤ b →
      (∀ k, (m.run a press).outcome = .ok k →
        (m.run (a + b) press).outcome =
          ((m.run a press).machine.run b press).outcome.map (k + ·) ∧
        (m.run (a + b) press).machine = ((m.run a press).machine.run b press).machine ∧
        (m.run (a + b) press).trace =
          ((m.run a press).machine.run b press).trace ++ (m.run a press).trace) ∧
      ∀ e, (m.run a press).outcome = .error e → m.run (a + b) press = m.run a press) ∧
    ∀ n : Int, m.halted = true ∨ n ≤ 0 →
      m.run n press = { machine := m } ∧ (m.run n press).outcome = .ok 0 := by
  refine ⟨fun n => proceed_iteratesStep m press n.toNat, fun a b ha hb => ?_, fun n h => ?_⟩
  · have hadd : m.run (a + b) press = (m.run a press).proceed press b.toNat := by
      rw [run, Int.toNat_add ha hb, Run.proceed_add]
      rfl
    refine ⟨fun k hk => ?_, fun e he => ?_⟩
    · obtain ⟨hf, hlength⟩ := Run.outcome_eq_ok_iff.1 hk
      have hsplit : m.run (a + b) press =
          ((m.run a press).machine.run b press).behind (m.run a press).trace :=
        calc m.run (a + b) press
            = (m.run a press).proceed press b.toNat := hadd
          _ = (Run.behind { machine := (m.run a press).machine }
                (m.run a press).trace).proceed press b.toNat := by rw [← Run.eq_behind hf]
          _ = ((m.run a press).machine.run b press).behind (m.run a press).trace :=
              Run.proceed_behind ..
      rw [hsplit]
      exact ⟨hlength ▸ Run.outcome_behind _ _, rfl, rfl⟩
    · have hover : (m.run a press).isOver = true := by
        rw [Run.isOver, Run.outcome_eq_error_iff.1 he]
        rfl
      rw [hadd, Run.proceed_of_isOver hover]
  · have hrun : m.run n press = { machine := m } := run_of_isOver h
    rw [hrun]
    exact ⟨rfl, rfl⟩

/-- A machine about to load a byte and then to jump to itself. -/
def stopping : Machine := trial [0x61, 0x05, 0x12, 0x02]

/-- Cut behind its first step, a run of three steps stops at its second. -/
theorem stopping_run :
    (stopping.run 1 none).outcome = .ok 1 ∧ (stopping.run 3 none).outcome = .ok 2 ∧
    ((stopping.run 1 none).machine.run 2 none).outcome.map (1 + ·) = .ok 2 ∧
    (stopping.run 3 none).machine = ((stopping.run 1 none).machine.run 2 none).machine ∧
    (stopping.run 3 none).machine.halted = true := by
  have hone : (stopping.run 1 none).outcome = .ok 1 :=
    Run.outcome_eq_ok_iff.2 ⟨by decide +kernel, by decide +kernel⟩
  have hthree : (stopping.run 3 none).outcome = .ok 2 :=
    Run.outcome_eq_ok_iff.2 ⟨by decide +kernel, by decide +kernel⟩
  obtain ⟨hsteps, hparts, -⟩ := run_iterates_step stopping none
  obtain ⟨hsum, hmachine, -⟩ := (hparts 1 2 (by omega) (by omega)).1 1 hone
  obtain ⟨-, -, -, hhalt⟩ := (hsteps 3).returned 2 hthree
  exact ⟨hone, hthree, hsum.symm.trans hthree, hmachine, hhalt (by decide)⟩

end Machine
end Chip8
