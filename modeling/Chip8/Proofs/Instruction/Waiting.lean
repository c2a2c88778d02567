/-
The wait for a key. A step that meets it without a key sets the program counter
back, so the next step meets it again, and nothing has changed but what goes on
by itself: the clock and the timers. A press is therefore taken in the same way
however often the machine has waited for it.
-/
import Chip8.Proofs.Effect
import Chip8.Proofs.Failure
import Chip8.Proofs.Steps
import Mathlib.Logic.Function.Iterate

namespace Chip8

namespace Machine

variable {m : Machine} {x : Register}

/-! ## Only the timers go on -/

/-- The machine with nothing but its timers gone on, by `n` readings of the clock. -/
def ticked (m : Machine) (n : Nat) : Machine :=
  { m with
    timers := ((List.range n).map fun k => m.clock.sequence (m.clock.drawn + k)).foldl .tick m.timers
    clock := { m.clock with drawn := m.clock.drawn + n } }

theorem tick_ticked (m : Machine) (n : Nat) : (m.ticked n).tick = m.ticked (n + 1) := by
  unfold ticked tick
  rw [List.range_succ, List.map_append, List.foldl_append]
  rfl

theorem pc_ticked (m : Machine) (n : Nat) : (m.ticked n).pc = m.pc := rfl

/-! ## Single steps -/

theorem fetch_eq_awaitKey (h : m.fetch.toNat = 0xF00A + 0x100 * x.toNat) :
    m.fetch = (Instruction.awaitKey x).encode := by
  apply BitVec.eq_of_toNat_eq
  have hencode : (Instruction.awaitKey x).encode.toNat = 2 ^ 8 * (0xF#4 ++ x).toNat + 0x0A :=
    toNat_append_eq (0xF#4 ++ x) 0x0A#8
  rw [h, hencode, toNat_append_eq, BitVec.toNat_ofNat]
  omega

/-- Without a key the step leaves the machine at the wait. -/
theorem step_awaitKey_none (h : m.fetch = (Instruction.awaitKey x).encode) :
    m.step none = (.ok ⟨m.pc, .awaitKey x⟩, m.tick) :=
  -- the address it was fetched from undoes the move of the counter
  (StepsTo.done rfl (Instruction.ofWord?_eq_some_iff.2 h.symm) rfl rfl).eq

/-- With a key it takes the key and goes on. -/
theorem step_awaitKey_some {ref : Key.Reference} {k : Key} (hk : Key.resolve ref = .ok k)
    (h : m.fetch = (Instruction.awaitKey x).encode) :
    m.step (some ref) =
      (.ok ⟨m.pc, .awaitKey x⟩, m.tick.advance.yield x (k.setWidth 8)) := by
  have hpress : resolvePress (some ref) = .ok (some k) := by rw [resolvePress, hk]; rfl
  exact (StepsTo.done hpress (Instruction.ofWord?_eq_some_iff.2 h.symm) rfl rfl).eq

/-! ## Many waits -/

/-- A machine that has waited for a while waits on. -/
theorem step_ticked (h : m.fetch = (Instruction.awaitKey x).encode) (n : Nat) :
    (m.ticked n).step none = (.ok ⟨m.pc, .awaitKey x⟩, m.ticked (n + 1)) := by
  rw [step_awaitKey_none (m := m.ticked n) h, tick_ticked, pc_ticked]

theorem after_replicate_awaitKey (h : m.fetch = (Instruction.awaitKey x).encode) (n : Nat) :
    m.after (List.replicate n none) = m.ticked n := by
  induction n with
  | zero => rfl
  | succ n ih =>
    rw [List.replicate_succ', after_concat, ih, step_ticked h]

theorem results_replicate_awaitKey (h : m.fetch = (Instruction.awaitKey x).encode) (n : Nat) :
    m.results (List.replicate n none) = List.replicate n (.ok ⟨m.pc, .awaitKey x⟩) := by
  induction n with
  | zero => rfl
  | succ n ih =>
    rw [List.replicate_succ', results_append, ih, after_replicate_awaitKey h, results,
      step_ticked h, List.replicate_succ', results]

/-- A run that waits traces every wait. -/
theorem advance_iterate_awaitKey (h : m.fetch = (Instruction.awaitKey x).encode) (n : Nat)
    (earlier : List Executed) :
    (fun r : Run => r.advance none)^[n] { machine := m, trace := earlier } =
      { machine := m.ticked n, trace := List.replicate n ⟨m.pc, .awaitKey x⟩ ++ earlier } := by
  induction n with
  | zero => rfl
  | succ n ih =>
    rw [Function.iterate_succ_apply', ih, Run.advance, step_ticked h]
    rfl

/-- What `n` steps without a key are to a machine at a wait for a key, and what a
key that is pressed then is to it. -/
structure WaitsUnseen (m : Machine) (x : Register) (n : Nat) : Prop where
  answers : m.results (List.replicate n none) = List.replicate n (.ok ⟨m.pc, .awaitKey x⟩)
  traced : ∀ earlier, (fun r : Run => r.advance none)^[n] { machine := m, trace := earlier } =
    { machine := m.after (List.replicate n none)
      trace := List.replicate n ⟨m.pc, .awaitKey x⟩ ++ earlier }
  after : m.after (List.replicate n none) = m.ticked n
  /-- A key is taken, and nothing else is changed. -/
  taken : ∀ ref k, Key.resolve ref = .ok k →
    m.step (some ref) = (.ok ⟨m.pc, .awaitKey x⟩, { m.ticked 1 with
      registers := m.registers.write x (k.setWidth 8)
      pc := m.pc + 2 }) ∧
    ((m.step (some ref)).2.register x).toNat = k.toNat ∧
    (m.step (some ref)).2.pc.toNat = (m.pc.toNat + 2) % 65536
  /-- Behind the waits it is taken likewise, with all but the timers the same. -/
  same : ∀ ref k, Key.resolve ref = .ok k →
    (m.after (List.replicate n none)).step (some ref) =
      ((m.step (some ref)).1, { (m.step (some ref)).2 with
        timers := (m.ticked (n + 1)).timers
        clock := (m.ticked (n + 1)).clock })

/-- **Waiting for a key is unseen.** At the word `Fx0A`, wherever it lies and
whatever keys are held, any number of steps without a key are carried out and
traced, and nothing but the timers goes on. A key that is pressed at last is
taken as it would have been at once. -/
theorem waitsUnseen (h : m.fetch.toNat = 0xF00A + 0x100 * x.toNat) (n : Nat) :
    m.WaitsUnseen x n := by
  have hword := fetch_eq_awaitKey h
  have hafter := after_replicate_awaitKey hword n
  refine ⟨results_replicate_awaitKey hword n, ?_, hafter, fun ref k hk => ?_, fun ref k hk => ?_⟩
  · intro earlier
    rw [hafter, advance_iterate_awaitKey hword]
  · rw [step_awaitKey_some hk hword]
    refine ⟨rfl, ?_, BitVec.toNat_add ..⟩
    have hread : (m.registers.write x (k.setWidth 8)).read x = k.setWidth 8 := by simp
    have hk : k.toNat < 2 ^ 8 := Nat.lt_trans k.isLt (by decide)
    calc ((m.registers.write x (k.setWidth 8)).read x).toNat
        = (k.setWidth 8).toNat := congrArg BitVec.toNat hread
      _ = k.toNat := by rw [BitVec.toNat_setWidth, Nat.mod_eq_of_lt hk]
  · rw [hafter, step_awaitKey_some (m := m.ticked n) hk hword, tick_ticked, pc_ticked,
      step_awaitKey_some hk hword]
    rfl

/-- A machine that waits at the top of memory, the second byte of its word at the
bottom, with a key held down. -/
def waitingAtTop : Machine :=
  { (trial []).poke 0xFFF [0xF3, 0x0A] with pc := 0xFFFF, keypad := Keypad.released.set 5 true }

/-- Two waits and a press there, with the program counter passing its own top. -/
theorem waitingAtTop_waitsUnseen :
    waitingAtTop.fetch.toNat = 0xF00A + 0x100 * (3#4).toNat ∧
    waitingAtTop.WaitsUnseen 3 2 ∧
    (waitingAtTop.step (some (.text "A"))).2.pc.toNat = 1 := by
  have hfetch : waitingAtTop.fetch.toNat = 0xF00A + 0x100 * (3#4).toNat := by decide +kernel
  have hkey : Key.resolve (.text "A") = .ok 0xA := rfl
  have hwaits := waitsUnseen (m := waitingAtTop) hfetch 2
  exact ⟨hfetch, hwaits, (hwaits.taken _ _ hkey).2.2⟩

end Machine
end Chip8
