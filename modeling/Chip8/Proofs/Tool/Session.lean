/-
A session goes the way of a run. Whatever is shown and however long the pauses,
its run is the run of its machine, cut off where the user interrupts; without
an interruption it is the whole run, and the log tells its steps one after
another, the failing one last.
-/
import Chip8.Proofs.Failure
import Chip8.Proofs.Run
import Chip8.Tool.Session

namespace Chip8.Tool.Session

variable {p : Pace} {s : Session} {m : Machine}

/-! ## The run of a session -/

@[simp] theorem run_note (s : Session) (events : List Event) : (s.note events).run = s.run := rfl

@[simp] theorem interrupted_note (s : Session) (events : List Event) :
    (s.note events).interrupted = s.interrupted := rfl

@[simp] theorem reverse_log_note (s : Session) (events : List Event) :
    (s.note events).log.reverse = s.log.reverse ++ events := by
  simp [note]

@[simp] theorem run_rest (p : Pace) (s : Session) : (rest p s).run = s.run := by
  unfold rest
  split
  · rfl
  · dsimp only
    split <;> rfl

/-- A step of a session is a step of its run. -/
theorem run_advance (p : Pace) (s : Session) : (s.advance p).run = s.run.advance p.press := by
  unfold advance
  dsimp only
  split
  · rfl
  · exact run_rest ..
  · rfl

/-- The run of a session has taken as many of the steps as the user has let it. -/
theorem exists_run_proceed (p : Pace) (s : Session) (limit : Nat) :
    ∃ k, (s.proceed p limit).run = s.run.proceed p.press k := by
  induction limit generalizing s with
  | zero => exact ⟨0, rfl⟩
  | succ limit ih =>
    rw [proceed]
    by_cases hover : s.isOver = true
    · rw [if_pos hover]
      exact ⟨0, rfl⟩
    · have hrun : ¬ s.run.isOver = true := fun h => hover (by rw [isOver, h, Bool.true_or])
      obtain ⟨k, hk⟩ := ih (s.advance p)
      rw [if_neg hover, hk, run_advance]
      exact ⟨k + 1, by rw [Run.proceed, if_neg hrun]⟩

/-- A failure that ends a session is a fault in a step if the key to press is one. -/
theorem fault_of_failure {e : Machine.Failure} (hpress : Machine.NamesKey p.press)
    (hs : s.run = { machine := m }) {limit : Nat} (h : (s.proceed p limit).run.failure = some e) :
    ∃ f, e = .fault f ∧ ∃ n : Machine, (n.step p.press).1 = .error (.fault f) := by
  obtain ⟨k, hk⟩ := exists_run_proceed p s limit
  rw [hk, hs] at h
  obtain ⟨-, -, hstep⟩ :=
    (Machine.proceed_iteratesStep m p.press k).raised e (Run.outcome_eq_error_iff.2 h)
  cases e with
  | unresolvedKey u =>
    have hu := Machine.step_eq_unresolved_iff.1 (congrArg Prod.fst hstep)
    obtain ⟨key, hkey⟩ := Machine.namesKey_iff.1 hpress
    rw [hkey] at hu
    cases hu
  | fault f => exact ⟨f, rfl, _, congrArg Prod.fst hstep⟩

/-! ## The log of a session -/

/-- What is told about a step of a machine that is not halted. -/
def toldOf (p : Pace) (e : Executed) : List Event :=
  (if jumpsToItself e then
      debug p.verbose ("Self-jump at $" ++ Numeral.hex 4 e.address.toNat ++ ", halting")
    else []) ++
  (if p.trace then
      [sayErr ("$" ++ Numeral.hex 3 e.address.toNat ++ ": " ++ e.instruction.assembly)]
    else [])

theorem stepEvents_of_awake (hm : m.halted = false) (e : Executed) :
    stepEvents p m e = toldOf p e := by
  simp [stepEvents, toldOf, hm]

/-- What a session does at steps that are carried out one after another. -/
def work (p : Pace) (m : Machine) : List Executed → List Event
  | [] => []
  | e :: es =>
    let next := (m.step p.press).2
    toldOf p e ++ frameEvents p next ++ p.pause.toList.map .pause ++ work p next es

/-- What a session does in the course of a run of its machine. -/
def chronicle (p : Pace) (m : Machine) (r : Run) : List Event :=
  work p m r.trace.reverse ++
    match r.failure with
    | some failure => failureEvents p (m.afterSteps p.press r.steps) failure
    | none => []

theorem chronicle_behind {e : Executed} {next : Machine} (hs : m.step p.press = (.ok e, next))
    (r : Run) : chronicle p m (r.behind [e]) =
      toldOf p e ++ frameEvents p next ++ p.pause.toList.map .pause ++ chronicle p next r := by
  have htrace : (r.behind [e]).trace.reverse = e :: r.trace.reverse := List.reverse_append
  have hsteps : (r.behind [e]).steps = r.steps + 1 := List.length_append
  have hfailure : (r.behind [e]).failure = r.failure := rfl
  rw [chronicle, htrace, hsteps, hfailure, work, hs, Machine.afterSteps_succ, hs,
    List.append_assoc _ (work ..)]
  rfl

theorem log_rest (hp : p.interruptAt = none) (s : Session) :
    (rest p s).log.reverse = s.log.reverse ++ p.pause.toList.map .pause := by
  unfold rest
  cases p.pause with
  | none => exact (List.append_nil _).symm
  | some seconds => simp [hp, note]

theorem interrupted_rest (hp : p.interruptAt = none) (s : Session) :
    (rest p s).interrupted = s.interrupted := by
  unfold rest
  cases p.pause with
  | none => rfl
  | some seconds => simp [hp]

theorem proceed_of_isOver (h : s.isOver = true) (p : Pace) (limit : Nat) :
    s.proceed p limit = s := by
  cases limit with
  | zero => rfl
  | succ limit => rw [proceed, if_pos h]

theorem advance_of_error {e : Machine.Failure} {next : Machine}
    (h : s.run.machine.step p.press = (.error e, next)) :
    s.advance p = { s with run := { s.run with machine := next, failure := some e } }.note
      (failureEvents p s.run.machine e) := by
  simp [advance, Run.advance, h]

/-- A session that fails at once has done nothing. -/
theorem proceed_of_error {e : Machine.Failure} {next : Machine} (hover : s.isOver = false)
    (h : s.run.machine.step p.press = (.error e, next)) (limit : Nat) :
    (s.proceed p (limit + 1)).run = { s.run with machine := next, failure := some e } := by
  rw [proceed, hover, if_neg Bool.false_ne_true, advance_of_error h, proceed_of_isOver rfl,
    run_note]

theorem advance_of_ok (hp : p.interruptAt = none) (hm : s.run.machine.halted = false)
    {e : Executed} {next : Machine} (h : s.run.machine.step p.press = (.ok e, next)) :
    (s.advance p).run = { machine := next, trace := e :: s.run.trace } ∧
    (s.advance p).interrupted = s.interrupted ∧
    (s.advance p).log.reverse =
      s.log.reverse ++ (toldOf p e ++ frameEvents p next ++ p.pause.toList.map .pause) := by
  have hadvance : s.advance p =
      rest p ({ s with run := { machine := next, trace := e :: s.run.trace } }.note
        (toldOf p e ++ frameEvents p next)) := by
    simp [advance, Run.advance, h, stepEvents_of_awake hm]
  rw [hadvance, log_rest hp, reverse_log_note, List.append_assoc]
  exact ⟨run_rest .., interrupted_rest hp _, rfl⟩

/-- A session that is not interrupted goes through the whole run of its machine
and tells it. -/
theorem proceed_eq (hp : p.interruptAt = none) (hs : s.interrupted = false)
    {earlier : List Executed} (hrun : s.run = { machine := m, trace := earlier }) (limit : Nat) :
    let r := Run.proceed p.press limit { machine := m }
    (s.proceed p limit).run = r.behind earlier ∧
      (s.proceed p limit).log.reverse = s.log.reverse ++ chronicle p m r := by
  induction limit generalizing s m earlier with
  | zero => exact ⟨hrun, (List.append_nil _).symm⟩
  | succ limit ih =>
    have hover : s.isOver = m.halted := by simp [isOver, hs, hrun, Run.isOver]
    have hover' : ({ machine := m } : Run).isOver = m.halted := rfl
    dsimp only
    rw [proceed, Run.proceed, hover, hover']
    cases hm : m.halted with
    | true =>
      rw [if_pos rfl, if_pos rfl]
      exact ⟨hrun, (List.append_nil _).symm⟩
    | false =>
      rw [if_neg Bool.false_ne_true, if_neg Bool.false_ne_true, Run.advance]
      have hmachine : s.run.machine = m := by rw [hrun]
      split
      next e next hstep =>
        rw [← hmachine] at hm hstep
        obtain ⟨hrun', hinterrupted, hlog⟩ := advance_of_ok hp hm hstep
        obtain ⟨hrun'', hlog'⟩ := ih (hinterrupted.trans hs) hrun'
        have hfirst : ({ machine := next, trace := [e] } : Run) =
            Run.behind { machine := next } [e] := rfl
        rw [hfirst, Run.proceed_behind, chronicle_behind (hmachine ▸ hstep), hrun'', hlog', hlog]
        refine ⟨?_, by simp only [List.append_assoc]⟩
        simp [Run.behind, hrun]
      next e next hstep =>
        rw [advance_of_error (by rw [hmachine]; exact hstep), Run.proceed_of_isOver rfl,
          proceed_of_isOver rfl, reverse_log_note, hmachine, hrun]
        exact ⟨rfl, rfl⟩

end Chip8.Tool.Session
