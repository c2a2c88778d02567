/-
The timers and the calls made of them: ticks at any readings of the clock, and
settings of the two counters. Which ticks have counted so far (`counted`) says
all there is to know: the next tick is measured from the last of their readings,
and a counter has gone down by their number since it was set, unless it has come
to zero.
-/
import Chip8.Timers

namespace Chip8.Timers

/-- The two counters. -/
inductive Counter
  | delay
  | sound
deriving DecidableEq, Repr

/-- The value of a counter. -/
def counter (t : Timers) : Counter → Byte
  | .delay => t.delay
  | .sound => t.sound

/-- Sets a counter to the low byte of an integer. -/
def set (t : Timers) (value : Int) : Counter → Timers
  | .delay => t.setDelay value
  | .sound => t.setSound value

/-- What the timers are called for. -/
inductive Call
  | tick (now : Float)
  | set (k : Counter) (value : Int)

/-- The timers after a call. -/
def call (t : Timers) : Call → Timers
  | .tick now => t.tick now
  | .set k value => t.set value k

/-- The timers after calls in order. -/
def after (t : Timers) (calls : List Call) : Timers := calls.foldl call t

/-- The reading at which a call counts, if it is a tick that does. -/
def hits (t : Timers) : Call → List Float
  | .tick now => if t.due now then [now] else []
  | .set .. => []

/-- The readings of the ticks that count, in order. -/
def counted (t : Timers) : List Call → List Float
  | [] => []
  | c :: calls => t.hits c ++ (t.call c).counted calls

variable {t : Timers} {calls : List Call} {now : Float} {k : Counter}

@[simp] theorem after_nil (t : Timers) : t.after [] = t := rfl

@[simp] theorem after_cons (t : Timers) (c : Call) (calls : List Call) :
    t.after (c :: calls) = (t.call c).after calls := rfl

theorem after_append (t : Timers) (calls later : List Call) :
    t.after (calls ++ later) = (t.after calls).after later :=
  List.foldl_append

/-! ## Single calls -/

theorem due_iff : t.due now = true ↔ ¬ (now - t.last < 1.0 / 60.0) := by
  rw [due, elapsed, period, Bool.not_eq_true', decide_eq_false_iff_not]

theorem tick_of_due (h : t.due now = true) :
    t.tick now = ⟨countDown t.delay, countDown t.sound, now⟩ := if_pos h

theorem tick_of_not_due (h : t.due now = false) : t.tick now = t := by
  rw [tick, h, if_neg Bool.false_ne_true]

/-- A counter goes down by one, and stays at zero. -/
theorem toNat_countDown_eq (b : Byte) : (countDown b).toNat = b.toNat - 1 := by
  unfold countDown
  by_cases h : b = 0
  · rw [if_pos h, h]
    rfl
  · have hpos : 0 < b.toNat := Nat.pos_of_ne_zero fun h0 => h (BitVec.eq_of_toNat_eq h0)
    rw [if_neg h]
    exact BitVec.toNat_sub_of_le (BitVec.le_def.2 hpos)

theorem toNat_counter_of_due (h : t.due now = true) (k : Counter) :
    ((t.tick now).counter k).toNat = (t.counter k).toNat - 1 := by
  rw [tick_of_due h]
  cases k with
  | delay => exact toNat_countDown_eq t.delay
  | sound => exact toNat_countDown_eq t.sound

theorem toNat_counter_set (t : Timers) (value : Int) (k : Counter) :
    (((t.set value k).counter k).toNat : Int) = value % 256 := by
  have hcounter : (t.set value k).counter k = BitVec.ofInt 8 value := by
    cases k <;> rfl
  rw [hcounter, BitVec.toNat_ofInt]
  omega

theorem counter_set_of_ne {l : Counter} (h : l ≠ k) (t : Timers) (value : Int) :
    (t.set value k).counter l = t.counter l := by
  cases k <;> cases l
  case delay.delay | sound.sound => exact absurd rfl h
  case delay.sound | sound.delay => rfl

theorem last_set (t : Timers) (value : Int) (k : Counter) : (t.set value k).last = t.last := by
  cases k <;> rfl

/-- A tick that counts leaves its reading as the reference; nothing else moves it. -/
theorem last_call (t : Timers) (c : Call) : (t.call c).last = (t.hits c).getLastD t.last := by
  cases c with
  | tick now =>
    by_cases h : t.due now = true
    · simp [call, hits, tick_of_due, h]
    · rw [Bool.not_eq_true] at h
      simp [call, hits, tick_of_not_due, h]
  | set k value => exact t.last_set value k

/-- A call that does not set a counter takes one off it if it is a tick that counts. -/
theorem toNat_counter_call {c : Call} (h : ∀ value, c ≠ .set k value) :
    ((t.call c).counter k).toNat = (t.counter k).toNat - (t.hits c).length := by
  cases c with
  | tick now =>
    by_cases hdue : t.due now = true
    · simp [call, hits, toNat_counter_of_due, hdue]
    · rw [Bool.not_eq_true] at hdue
      simp [call, hits, tick_of_not_due, hdue]
  | set l value =>
    have hne : k ≠ l := fun heq => h value (heq ▸ rfl)
    rw [call, counter_set_of_ne hne, hits, List.length_nil, Nat.sub_zero]

/-! ## Calls in order -/

/-- The reference is the reading of the last tick that counted. -/
theorem last_after (t : Timers) (calls : List Call) :
    (t.after calls).last = (t.counted calls).getLastD t.last := by
  induction calls generalizing t with
  | nil => rfl
  | cons c calls ih =>
    have hrest := ih (t.call c)
    rw [last_call] at hrest
    rw [after_cons, hrest, counted]
    simp only [List.getLastD_eq_getLast?, List.getLast?_append, Option.getD_or]

/-- A counter that is not set goes down by the number of ticks that count, to zero. -/
theorem toNat_counter_after (h : ∀ value, .set k value ∉ calls) :
    ((t.after calls).counter k).toNat = (t.counter k).toNat - (t.counted calls).length := by
  induction calls generalizing t with
  | nil => rfl
  | cons c calls ih =>
    have hfirst : ∀ value, c ≠ .set k value := fun value heq => h value (heq ▸ List.mem_cons_self)
    have hrest := ih (t := t.call c) fun value hmem => h value (List.mem_cons_of_mem c hmem)
    rw [after_cons, hrest, toNat_counter_call hfirst, counted, List.length_append]
    omega

/-- What the timers do at a call, and after any calls in order. -/
structure RunsDown (t : Timers) : Prop where
  /-- A tick that does not count changes nothing. -/
  notDue : ∀ now, t.due now = false → t.tick now = t
  /-- A tick that counts takes one off each counter that is not at zero. -/
  due : ∀ now, t.due now = true →
    (∀ k, ((t.tick now).counter k).toNat = (t.counter k).toNat - 1) ∧ (t.tick now).last = now
  /-- A setting takes the low byte, and leaves the other counter and the reference. -/
  set : ∀ value k, (((t.set value k).counter k).toNat : Int) = value % 256 ∧
    (∀ l, l ≠ k → (t.set value k).counter l = t.counter l) ∧ (t.set value k).last = t.last
  /-- A tick counts unless less than a sixtieth of a second has passed since the
  last one that did, or since the reading the timers came with. -/
  measured : ∀ calls now, (t.after calls).due now = true ↔
    ¬ (now - (t.counted calls).getLastD t.last < 1.0 / 60.0)
  /-- A counter that is not set loses one for every tick that counts, down to zero. -/
  lowered : ∀ k calls, (∀ value, .set k value ∉ calls) →
    (((t.after calls).counter k).toNat : Int) =
      max 0 (((t.counter k).toNat : Int) - (t.counted calls).length)
  range : ∀ k calls, ((t.after calls).counter k).toNat ≤ 255

theorem runsDown (t : Timers) : t.RunsDown where
  notDue _ := tick_of_not_due
  due now h := ⟨toNat_counter_of_due h, by rw [tick_of_due h]⟩
  set value k := ⟨t.toNat_counter_set value k, fun _ h => counter_set_of_ne h t value,
    t.last_set value k⟩
  measured calls now := by rw [due_iff, last_after]
  lowered k calls h := by
    have hcounter := toNat_counter_after (t := t) h
    omega
  range k calls := Nat.le_of_lt_succ ((t.after calls).counter k).isLt

end Chip8.Timers
