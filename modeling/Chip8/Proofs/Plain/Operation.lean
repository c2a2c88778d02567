/-
Well-formedness is an invariant of the machine in plain numbers: a loaded
machine has it, and everything that can be done to a machine keeps it. A step,
a run, a setting from outside, access to the keypad, to memory or to the
screen, with whatever integers: none leaves a range, and none breaks the
machine.

The machine of bit vectors cannot be ill-formed, so the proof is one
simulation (`plain_act`): each operation in plain numbers is the operation on
the bit vectors that the numbers stem from.
-/
import Chip8.Proofs.Failure
import Chip8.Proofs.Plain.Execution
import Chip8.Proofs.Steps
import Chip8.Proofs.Timers

namespace Chip8

/-! ## Steps and runs -/

theorem Timers.toNat_countDown (b : Byte) : ((countDown b).toNat : Int) =
    if 0 < (b.toNat : Int) then (b.toNat : Int) - 1 else b.toNat := by
  rw [toNat_countDown_eq]
  split
  · omega
  · omega

/-- An executed instruction in plain numbers. -/
def Executed.plain (d : Executed) : Int × Instruction := (d.address.toNat, d.instruction)

namespace Machine

variable (m : Machine)

theorem plain_tick : m.plain.tick = m.tick.plain := by
  have h : m.plain.tick = if Timers.elapsed m.timers.last m.clock.peek
      then { m.plain with
        clock := m.clock.advance
        delay := if 0 < m.plain.delay then m.plain.delay - 1 else m.plain.delay
        sound := if 0 < m.plain.sound then m.plain.sound - 1 else m.plain.sound
        last := m.clock.peek }
      else { m.plain with clock := m.clock.advance } := rfl
  rw [h]
  unfold tick Timers.tick Timers.due
  split
  · simp only [plain, Timers.toNat_countDown]
    rfl
  · rfl

theorem plain_step (press : Option Key.Reference) : m.plain.step press =
    some ((m.step press).1.map Executed.plain, (m.step press).2.plain) := by
  unfold Plain.step step
  cases hp : resolvePress press with
  | error e => rfl
  | ok key =>
    have hword : Instruction.decodeInt m.tick.fetch.toNat = Instruction.decode m.tick.fetch := by
      rw [Instruction.decodeInt, ofInt_toNat, BitVec.setWidth_eq]
    have hnext : m.tick.setPc (m.tick.pc.toNat + 2) = m.tick.advance := by
      rw [setPc, BitVec.ofInt_add, ofInt_toNat, BitVec.setWidth_eq]
      rfl
    have hread : m.tick.plain.readWord m.tick.pc.toNat = some (m.tick.fetch.toNat : Int) := plain_readWord ..
    simp only [plain_tick, plain_pc, hread, Option.bind_eq_bind, Option.bind_some, hword, perform]
    cases hw : Instruction.decode m.tick.fetch with
    | error cause => rfl
    | ok i =>
      simp only [plain_setPc, hnext, plain_execute, Option.bind_some]
      cases hx : m.tick.advance.execute i m.tick.pc key with
      | error cause => rfl
      | ok m' => rfl

theorem plain_proceed (press : Option Key.Reference) (limit : Nat) {r : Run} (h : r.failure = none) :
    r.machine.plain.runSteps press limit =
      some ((r.proceed press limit).failure, (r.proceed press limit).machine.plain) := by
  induction limit generalizing r with
  | zero =>
    rw [Run.proceed, h]
    rfl
  | succ limit ih =>
    have hover : r.isOver = r.machine.halted := by rw [Run.isOver, h]; rfl
    rw [Plain.runSteps, Run.proceed, hover, plain_halted]
    split
    · rw [h]
    · rw [plain_step]
      cases hs : r.machine.step press with
      | mk outcome m' =>
        cases outcome with
        | error failure =>
          have hnext : r.advance press = { r with machine := m', failure := some failure } := by
            rw [Run.advance, hs]
          have hstop : (r.advance press).isOver = true := by
            rw [hnext]
            rfl
          rw [Run.proceed_of_isOver hstop, hnext]
          rfl
        | ok d =>
          have hnext : r.advance press = { machine := m', trace := d :: r.trace } := by
            rw [Run.advance, hs]
          rw [hnext]
          exact @ih { machine := m', trace := d :: r.trace } rfl

end Machine

/-! ## Operations -/

/-- What can be done to a machine. -/
inductive Operation
  | step (press : Option Key.Reference)
  | run (limit : Int) (press : Option Key.Reference)
  | setPc (value : Int)
  | setHalted (value : Int)
  | setDelay (value : Int)
  | setSound (value : Int)
  | modifyIndex (f : Int → Int)
  | setRegister (r : Register) (b : Byte)
  | setKey (ref : Key.Reference) (down : Bool)
  | lookKey (ref : Key.Reference)
  | releaseKeys
  | write (place value : Int)
  | writeBytes (place : Int) (values : List Int)
  | drawSprite (x y : Int) (rows : List Int)
  | setPixel (x y : Int) (on : Bool)
  | clearScreen

/-- Why an operation is refused. -/
inductive Refusal
  | failure (f : Machine.Failure)
  | unresolvedKey (key : Key.Unresolved)
  | offScreen (p : Screen.OffScreen)

namespace Machine

/-- An operation on the machine: why it was refused, if it was, and the machine
after it. -/
def act (m : Machine) : Operation → Option Refusal × Machine
  | .step press =>
    match m.step press with
    | (.ok _, m') => (none, m')
    | (.error f, m') => (some (.failure f), m')
  | .run limit press => ((m.run limit press).failure.map .failure, (m.run limit press).machine)
  | .setPc value => (none, m.setPc value)
  | .setHalted value => (none, m.setHalted (value ≠ 0))
  | .setDelay value => (none, m.setDelay value)
  | .setSound value => (none, m.setSound value)
  | .modifyIndex f => (none, m.setIndex (f m.index.toNat))
  | .setRegister r b => (none, m.setRegister r b)
  | .setKey ref down =>
    match m.setKey ref down with
    | .ok m' => (none, m')
    | .error key => (some (.unresolvedKey key), m)
  | .lookKey ref =>
    match m.keypad.look ref with
    | .ok _ => (none, m)
    | .error key => (some (.unresolvedKey key), m)
  | .releaseKeys => (none, { m with keypad := .released })
  | .write place value => (none, { m with memory := m.memory.write place value })
  | .writeBytes place values => (none, m.poke place (values.map (BitVec.ofInt 8)))
  | .drawSprite x y rows => (none, { m with screen := m.screen.draw x y (rows.map (BitVec.ofInt 8)) })
  | .setPixel x y on =>
    match m.screen.setPixel x y on with
    | .ok screen => (none, { m with screen })
    | .error p => (some (.offScreen p), m)
  | .clearScreen => (none, { m with screen := .blank })

end Machine

namespace Plain

/-- The same in plain numbers. -/
def act (p : Plain) : Operation → Option (Option Refusal × Plain)
  | .step press => do
    match ← p.step press with
    | (.ok _, q) => some (none, q)
    | (.error f, q) => some (some (.failure f), q)
  | .run limit press => do
    let (failure, q) ← p.runSteps press limit.toNat
    some (failure.map .failure, q)
  | .setPc value => some (none, p.setPc value)
  | .setHalted value => some (none, { p with halted := value ≠ 0 })
  | .setDelay value => some (none, p.setDelay value)
  | .setSound value => some (none, p.setSound value)
  | .modifyIndex f => some (none, p.modifyIndex f)
  | .setRegister r b => do
    let registers ← putByte? p.registers r.toNat b.toNat
    some (none, { p with registers })
  | .setKey ref down =>
    match Key.resolve ref with
    | .error key => some (some (.unresolvedKey key), p)
    | .ok k => do
      let keys ← put? p.keys k.toNat down
      some (none, { p with keys })
  | .lookKey ref =>
    match Key.resolve ref with
    | .error key => some (some (.unresolvedKey key), p)
    | .ok k => do
      let _ ← at? p.keys k.toNat
      some (none, p)
  | .releaseKeys => some (none, { p with keys := List.replicate 16 false })
  | .write place value => do
    let q ← p.write place value
    some (none, q)
  | .writeBytes place values => do
    let q ← p.writeBytes place values
    some (none, q)
  | .drawSprite x y rows => do
    let (q, _) ← p.drawSprite x y rows
    some (none, q)
  | .setPixel x y on => do
    match ← p.setPixel x y on with
    | .ok q => some (none, q)
    | .error e => some (some (.offScreen e), p)
  | .clearScreen => some (none, p.clear)

/-- One operation after another, refused or not. -/
def acts (p : Plain) : List Operation → Option Plain
  | [] => some p
  | op :: ops => do
    let (_, q) ← p.act op
    q.acts ops

end Plain

theorem Machine.plain_act (m : Machine) (op : Operation) :
    m.plain.act op = some ((m.act op).1, (m.act op).2.plain) := by
  cases op with
  | step press =>
    simp only [Plain.act, plain_step, act]
    cases hs : m.step press with
    | mk outcome m' => cases outcome <;> rfl
  | run limit press =>
    have h := plain_proceed press limit.toNat (r := { machine := m }) rfl
    simp only [Plain.act]
    rw [h]
    rfl
  | setPc value => simp only [Plain.act, act, plain_setPc]
  | setHalted value => rfl
  | setDelay value => simp only [Plain.act, act, plain_setDelay]
  | setSound value => simp only [Plain.act, act, plain_setSound]
  | modifyIndex f => simp only [Plain.act, act, plain_modifyIndex]
  | setRegister r b =>
    have h : Plain.putByte? m.plain.registers r.toNat b.toNat = _ :=
      Plain.putByte?_numbers m.registers.values r.isLt b
    simp only [Plain.act, h]
    rfl
  | setKey ref down =>
    simp only [Plain.act, act, setKey, Keypad.assign]
    cases Key.resolve ref with
    | error key => rfl
    | ok k =>
      have h : Plain.put? m.plain.keys k.toNat down = some (m.keypad.set k down).held.toList := by
        rw [Plain.put?_natCast (by simpa [plain] using k.isLt)]
        simp [plain, Keypad.set, Vector.toList_set]
      simp only [h]
      rfl
  | lookKey ref =>
    simp only [Plain.act, act, Keypad.look]
    cases Key.resolve ref with
    | error key => rfl
    | ok k =>
      have h : Plain.at? m.plain.keys k.toNat = some (m.keypad.isHeld k) := by
        rw [Plain.at?_natCast]
        simp [plain, Keypad.isHeld]
      simp only [h]
      rfl
  | releaseKeys =>
    have h : List.replicate 16 false = Keypad.released.held.toList := by simp [Keypad.released]
    simp only [Plain.act, h]
    rfl
  | write place value =>
    simp only [Plain.act, plain_write]
    rfl
  | writeBytes place values =>
    simp only [Plain.act, plain_writeBytes]
    rfl
  | drawSprite x y rows =>
    simp only [Plain.act, plain_drawSprite]
    rfl
  | setPixel x y on =>
    simp only [Plain.act, plain_setPixel, act]
    cases m.screen.setPixel x y on <;> rfl
  | clearScreen =>
    simp only [Plain.act, plain_clear]
    rfl

/-! ## Loading -/

theorem Plain.image_eq {size start : Nat} {font program : List Byte} (hf : font.length ≤ start)
    (hp : start + program.length ≤ size) : image size start font program =
      numbers (Vector.ofFn fun place : Fin size => if place.val < start then font[place.val]?.getD 0
        else program[place.val - start]?.getD 0) := by
  let withFont := font.map (fun b => (b.toNat : Int)) ++
    (List.replicate size (0 : Int)).drop font.length
  have himage : image size start font program = withFont.take start ++
    program.map (fun b => (b.toNat : Int)) ++ withFont.drop (start + program.length) := rfl
  rw [himage]
  have hlength : withFont.length = size := by
    simp [withFont]
    omega
  have hget : ∀ k < size, withFont[k]? = some ((font[k]?.getD 0).toNat : Int) := by
    intro k hk
    by_cases hkf : k < font.length
    · simp [withFont, List.getElem?_append, hkf]
    · have : k - font.length < size - font.length := by omega
      simp [withFont, List.getElem?_append, hkf, this]
  have hbelow : (withFont.take start).length = start := by
    rw [List.length_take, hlength]
    omega
  have hupto : (withFont.take start ++ program.map fun b => (b.toNat : Int)).length =
      start + program.length := by
    rw [List.length_append, hbelow, List.length_map]
  refine List.ext_getElem? fun k => ?_
  by_cases hlow : k < start
  · have hk : k < size := by omega
    rw [List.getElem?_append_left (by omega), List.getElem?_append_left (by omega),
      List.getElem?_take_of_lt hlow, hget k hk]
    simp [numbers, hk, hlow]
  · by_cases hmiddle : k < start + program.length
    · have hk : k < size := by omega
      have hprogram : k - start < program.length := by omega
      rw [List.getElem?_append_left (by omega), List.getElem?_append_right (by omega), hbelow]
      simp [numbers, hk, hlow, hprogram]
    · rw [List.getElem?_append_right (by omega), hupto, List.getElem?_drop,
        Nat.add_sub_cancel' (by omega)]
      by_cases hk : k < size
      · rw [hget k hk]
        have hfont : ¬ k < font.length := by omega
        have hprogram : ¬ k - start < program.length := by omega
        simp [numbers, hk, hlow, hfont, hprogram]
      · simp [numbers, hk, hlength]

theorem Machine.plain_load (program : List Byte) (dialect : Dialect) (clock : Supply Float)
    (random : Supply Byte) : Plain.load program dialect clock random =
      (Machine.load program dialect clock random).map Machine.plain := by
  unfold Plain.load load Memory.load
  by_cases h : 0xE00 < program.length
  · have h' : Memory.programLimit < program.length := h
    rw [if_pos h, if_pos h']
    rfl
  · have h' : ¬ Memory.programLimit < program.length := h
    have hbytes : Plain.image 4096 0x200 Font.rows program = Plain.numbers (Vector.ofFn
        fun place : Fin 4096 => Memory.initial Font.rows.toArray program.toArray place) := by
      rw [Plain.image_eq (by decide) (by omega)]
      simp [Memory.initial, Memory.programStart]
    have hkeys : List.replicate 16 false = Keypad.released.held.toList := by simp [Keypad.released]
    have hregisters : List.replicate 16 (0 : Int) = Plain.numbers (Vector.replicate 16 (0 : Byte)) := by
      simp [Plain.numbers]
    have hslots : List.replicate 16 (0 : Int) = Plain.numbers (Vector.replicate 16 (0 : Word)) := by
      simp [Plain.numbers]
    rw [if_neg h, if_neg h', hbytes, replicate_blank, hkeys]
    refine congrArg Except.ok ?_
    simp only [plain, Plain.mk.injEq, true_and, and_true]
    exact ⟨hregisters, rfl, rfl, hslots, rfl, rfl, rfl, rfl⟩

/-! ## The invariant -/

namespace Plain

theorem wellFormed_of_act {p : Plain} (h : p.WellFormed) (op : Operation) :
    ∃ refusal q, p.act op = some (refusal, q) ∧ q.WellFormed := by
  obtain ⟨m, rfl⟩ := exists_of_wellFormed h
  exact ⟨_, _, m.plain_act op, (m.act op).2.wellFormed_plain⟩

theorem wellFormed_of_acts {p : Plain} (h : p.WellFormed) (ops : List Operation) :
    ∃ q, p.acts ops = some q ∧ q.WellFormed := by
  induction ops generalizing p with
  | nil => exact ⟨p, rfl, h⟩
  | cons op ops ih =>
    obtain ⟨refusal, q, hact, hq⟩ := wellFormed_of_act h op
    obtain ⟨q', hacts, hq'⟩ := ih hq
    refine ⟨q', ?_, hq'⟩
    rw [acts, hact]
    exact hacts

theorem wellFormed_of_step {p : Plain} (h : p.WellFormed) (press : Option Key.Reference) :
    ∃ outcome q, p.step press = some (outcome, q) ∧ q.WellFormed ∧
      ∀ failure, outcome = .error failure → failure.IsOfStep press p.pc := by
  obtain ⟨m, rfl⟩ := exists_of_wellFormed h
  refine ⟨_, _, m.plain_step press, (m.step press).2.wellFormed_plain, fun failure hf => ?_⟩
  refine Machine.isOfStep ?_
  cases hs : (m.step press).1 with
  | error e =>
    rw [hs] at hf
    cases hf
    rfl
  | ok d =>
    rw [hs] at hf
    cases hf

/-- **Well-formedness is an invariant.** Loading establishes it; every
operation, refused or not, keeps it and leaves the machine unbroken; so does
any sequence of operations, after which a step has no failure but its own. The
well-formed machines are those of bit vectors, on which the same operations do
the same. -/
theorem wellFormed_always :
    (∀ program dialect clock random, program.length ≤ 0xE00 →
      ∃ m : Machine, Machine.load program dialect clock random = .ok m ∧
        load program dialect clock random = .ok m.plain ∧ m.plain.WellFormed) ∧
    (∀ p : Plain, p.WellFormed → ∀ op : Operation,
      ∃ refusal q, p.act op = some (refusal, q) ∧ q.WellFormed) ∧
    (∀ p : Plain, p.WellFormed → ∀ (ops : List Operation) (press : Option Key.Reference),
      ∃ q outcome q', p.acts ops = some q ∧ q.WellFormed ∧
        q.step press = some (outcome, q') ∧ q'.WellFormed ∧
        ∀ failure, outcome = .error failure → failure.IsOfStep press q.pc) ∧
    (∀ p : Plain, p.WellFormed ↔ ∃ m : Machine, p = m.plain) ∧
    ∀ (m : Machine) (op : Operation), m.plain.act op = some ((m.act op).1, (m.act op).2.plain) := by
  refine ⟨?_, fun p h op => wellFormed_of_act h op, ?_, fun p => wellFormed_iff, Machine.plain_act⟩
  · intro program dialect clock random h
    have hload : ∃ m, Machine.load program dialect clock random = .ok m := by
      have hfits : ¬ Memory.programLimit < program.length := Nat.not_lt.2 h
      rw [Machine.load, Memory.load, if_neg hfits]
      exact ⟨_, rfl⟩
    obtain ⟨m, hm⟩ := hload
    refine ⟨m, hm, ?_, m.wellFormed_plain⟩
    rw [Machine.plain_load, hm]
    rfl
  · intro p h ops press
    obtain ⟨q, hacts, hq⟩ := wellFormed_of_acts h ops
    obtain ⟨outcome, q', hstep, hq', hfailure⟩ := wellFormed_of_step hq press
    exact ⟨q, outcome, q', hacts, hq, hstep, hq', hfailure⟩

end Plain
end Chip8
