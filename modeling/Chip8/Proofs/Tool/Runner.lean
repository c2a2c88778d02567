/-
What the runner needs to start: a command line that asks for a run, a dialect
and keys that are known, a program that can be read and is not too long, and a
speed within the reach of binary64. With all of them there is a session, and
without any of them there is none.
-/
import Chip8.Except
import Chip8.Proofs.Binary64
import Chip8.Proofs.Failure
import Chip8.Proofs.FileTree
import Chip8.Proofs.Memory
import Chip8.Tool.Runner

namespace Chip8

theorem Settings.pause?_eq_error_iff {s : Settings} {e : TooFast} :
    s.pause? = .error e ↔ (Binary64.outOfReach : Int) ≤ s.speed ∧ e = ⟨s.speed⟩ := by
  have hpos : 0 < Binary64.outOfReach := by decide +kernel
  unfold pause?
  split
  next hspeed =>
    simp only [reduceCtorEq, false_iff, not_and]
    omega
  next hspeed =>
    have hfloat := Binary64.ofInt?_eq_none_iff (n := s.speed)
    split
    next perSecond hsome =>
      simp only [hsome, reduceCtorEq, false_iff, not_and] at hfloat ⊢
      omega
    next hnone =>
      have hlarge := hfloat.1 hnone
      have hreach : (Binary64.outOfReach : Int) ≤ s.speed := by omega
      rw [Except.error.injEq]
      exact ⟨fun h => ⟨hreach, h.symm⟩, fun h => h.2.symm⟩

theorem Settings.pause?_eq {s : Settings} {perSecond : Float}
    (h : Binary64.ofInt? s.speed = some perSecond) :
    s.pause? = .ok (if s.speed ≤ 0 then none else some (1.0 / perSecond)) := by
  rw [pause?, h]
  split <;> rfl

/-! ## Loading -/

/-- How a machine is when its program has been loaded. -/
structure Machine.Fresh (m : Machine) (program : List Byte) : Prop where
  pc : m.pc = 0x200
  depth : m.stack.depth = 0
  halted : m.halted = false
  keypad : m.keypad = .released
  /-- It is about to fetch the first word of its program. -/
  fetch : ∀ hi lo rest, program = hi :: lo :: rest → m.fetch = Word.ofBytes hi lo

theorem Machine.fresh_of_load {program : List Byte} {dialect : Dialect} {clock : Supply Float}
    {random : Supply Byte} {m : Machine} (h : load program dialect clock random = .ok m) :
    m.Fresh program := by
  have hlength : program.length ≤ 0xE00 := by
    by_contra hlong
    have hlimit : Memory.programLimit < program.length := Nat.not_le.1 hlong
    rw [load, Memory.load, if_pos hlimit] at h
    cases h
  obtain ⟨M, hM, hread⟩ := Memory.load_spec hlength
  rw [load, hM] at h
  cases h
  refine ⟨rfl, rfl, rfl, rfl, ?_⟩
  rintro hi lo rest rfl
  exact congrArg₂ Word.ofBytes (hread 0 hi rfl) (hread 1 lo rfl)

namespace Tool.Runner

/-! ## Starting -/

/-- The command line asks for a run. -/
def Asks (files : FileTree) (arguments : List String) (q : Request) : Prop :=
  ∃ c, CommandLine.read switches arguments = .ok c ∧ c.first? [.version, .help] = none ∧
    request files c = .ok q

/-- The command line is understood: it asks for a run, or only to be told something. -/
def Accepts (files : FileTree) (arguments : List String) : Prop :=
  ∃ c, CommandLine.read switches arguments = .ok c ∧
    (c.first? [.version, .help] = none → ∃ q, request files c = .ok q)

theorem Asks.unique {files : FileTree} {arguments : List String} {q q' : Request}
    (h : Asks files arguments q) (h' : Asks files arguments q') : q = q' := by
  obtain ⟨c, hread, -, hq⟩ := h
  obtain ⟨c', hread', -, hq'⟩ := h'
  cases hread.symm.trans hread'
  exact Except.ok.inj (hq.symm.trans hq')

/-- What is told before the first step, and what is noted on the way there. -/
def preamble (q : Request) (s : Settings) (setup : Setup) (program : List Byte) : List Event :=
  debug q.verbose
    ("Loaded ROM '" ++ q.rom.name ++ "' (" ++ toString program.length ++ " bytes)") ++
  debug q.verbose
    ("Machine created: " ++ toString program.length ++ " byte program, quirks: " ++
      setup.dialect.describe) ++
  openingEvents q program s setup

/-- The start of a run from all that its request needs. -/
def opened (q : Request) (s : Settings) (setup : Setup) (program : List Byte) (m : Machine)
    (pause : Option Float) (interruptAt : Option Nat) : Start :=
  { request := q
    settings := s
    pace :=
      { press := setup.press.map fun k => .number k.toNat
        pause, interruptAt, trace := q.trace, live := q.live, verbose := q.verbose }
    session := { run := { machine := m }, log := (preamble q s setup program).reverse } }

variable {files : FileTree} {settings : Settings} {clock : Supply Float} {random : Supply Byte}
  {interruptAt : Option Nat} {q : Request} {setup : Setup} {program : List Byte} {m : Machine}

theorem machine_eq_ok_iff {s : Settings} : machine program s setup clock random = .ok m ↔
    ∃ new, Machine.load program setup.dialect clock random = .ok new ∧
      { new with
        halted := s.startHalted
        keypad := setup.held.foldl (fun p k => p.set k true) new.keypad } = m := by
  rw [machine, map_eq_ok_iff]

theorem exists_machine (h : program.length ≤ 0xE00) (s : Settings) (setup : Setup)
    (clock : Supply Float) (random : Supply Byte) :
    ∃ m, machine program s setup clock random = .ok m := by
  obtain ⟨M, hM, -⟩ := Memory.load_spec h
  exact ⟨_, machine_eq_ok_iff.2 ⟨_, by rw [Machine.load, hM]; rfl, rfl⟩⟩

/-- All that a request needs is there: its dialect and its keys are known, and
its program can be read and is not too long. -/
structure Serves (files : FileTree) (q : Request) (s : Settings) (setup : Setup)
    (program : List Byte) : Prop where
  setup : Runner.setup q s = .ok setup
  program : files.loadProgram q.rom = .ok program

theorem Serves.unique {s : Settings} {setup' : Setup} {program' : List Byte}
    (h : Serves files q s setup program) (h' : Serves files q s setup' program') :
    setup = setup' ∧ program = program' :=
  ⟨Except.ok.inj (h.setup.symm.trans h'.setup), Except.ok.inj (h.program.symm.trans h'.program)⟩

/-- Where a request leads: to a session, to a speed that is out of reach, or to
the report of what it lacks. -/
theorem start_cases (files : FileTree) (settings : Settings) (clock : Supply Float)
    (random : Supply Byte) (interruptAt : Option Nat) (q : Request) :
    let s := settingsFor q settings
    let opening := start files settings clock random interruptAt q
    (∃ setup program m pause, Serves files q s setup program ∧
      machine program s setup clock random = .ok m ∧ s.pause? = .ok pause ∧
      opening = .started (opened q s setup program m pause interruptAt)) ∨
    (∃ setup program events e, Serves files q s setup program ∧ s.pause? = .error e ∧
      opening = .ended { events, ending := .tooFast e }) ∨
    ((¬ ∃ setup program, Serves files q s setup program) ∧
      ∃ o code, opening = .ended o ∧ o.ending = .exit code) := by
  intro s opening
  cases hsetup : Runner.setup q s with
  | error p =>
    have hopening : opening = .ended (stop [] none p) := by
      simp only [opening, start, s, hsetup]
    refine .inr (.inr ⟨?_, _, _, hopening, rfl⟩)
    rintro ⟨_, _, h⟩
    cases hsetup.symm.trans h.setup
  | ok setup =>
    cases hprogram : files.loadProgram q.rom with
    | error e =>
      have hopening : opening = .ended (stop [] none (loadProblem e)) := by
        simp only [opening, start, s, hsetup, hprogram]
      refine .inr (.inr ⟨?_, _, _, hopening, rfl⟩)
      rintro ⟨_, _, h⟩
      cases hprogram.symm.trans h.program
    | ok program =>
      have hserves : Serves files q s setup program := ⟨hsetup, hprogram⟩
      obtain ⟨m, hmachine⟩ :=
        exists_machine (FileTree.loadProgram_eq_ok_iff.1 hprogram).2 s setup clock random
      cases hpause : s.pause? with
      | ok pause =>
        refine .inl ⟨setup, program, m, pause, hserves, hmachine, rfl, ?_⟩
        simp only [opening, start, s, hsetup, hprogram, hmachine, hpause]
        rfl
      | error e =>
        have hopening : ∃ events, opening = .ended { events, ending := .tooFast e } := by
          simp only [opening, start, s, hsetup, hprogram, hmachine, hpause]
          exact ⟨_, rfl⟩
        obtain ⟨events, hopening⟩ := hopening
        exact .inr (.inl ⟨setup, program, events, e, hserves, rfl, hopening⟩)

theorem prepare_of_asks {arguments : List String} (h : Asks files arguments q)
    (cache : SettingsCache) : prepare files cache clock random interruptAt arguments =
      (start files cache.settings clock random interruptAt q, cache.filled) := by
  obtain ⟨c, hread, hfirst, hrequest⟩ := h
  simp only [prepare, hread, hfirst, hrequest]

theorem run_of_asks {arguments : List String} (h : Asks files arguments q) (cache : SettingsCache) :
    run files cache clock random interruptAt arguments =
      ((start files cache.settings clock random interruptAt q).outcome files, cache.filled) := by
  rw [run, prepare_of_asks h]

/-- With all that its request needs, a session starts if the speed is in reach. -/
theorem exists_started {arguments : List String} {cache : SettingsCache}
    (hasks : Asks files arguments q)
    (hserves : Serves files q (settingsFor q cache.settings) setup program)
    (hspeed : (settingsFor q cache.settings).speed < Binary64.outOfReach)
    (clock : Supply Float) (random : Supply Byte) (interruptAt : Option Nat) :
    ∃ m pause, machine program (settingsFor q cache.settings) setup clock random = .ok m ∧
      (settingsFor q cache.settings).pause? = .ok pause ∧
      (prepare files cache clock random interruptAt arguments).1 =
        .started (opened q (settingsFor q cache.settings) setup program m pause interruptAt) := by
  rw [prepare_of_asks hasks]
  dsimp only
  rcases start_cases files cache.settings clock random interruptAt q with
    ⟨setup', program', m, pause, hserves', hmachine, hpause, hstart⟩ |
      ⟨_, _, _, e, -, hpause, -⟩ | ⟨hlacks, -⟩
  · obtain ⟨rfl, rfl⟩ := hserves.unique hserves'
    exact ⟨m, pause, hmachine, hpause, hstart⟩
  · exact absurd (Settings.pause?_eq_error_iff.1 hpause).1 (Int.not_le.2 hspeed)
  · exact absurd ⟨setup, program, hserves⟩ hlacks

/-- A session only starts with all that its request needs. -/
theorem opened_of_started {arguments : List String} {cache : SettingsCache} {st : Start}
    (h : (prepare files cache clock random interruptAt arguments).1 = .started st) :
    ∃ q setup program m pause, Asks files arguments q ∧
      Serves files q (settingsFor q cache.settings) setup program ∧
      st = opened q (settingsFor q cache.settings) setup program m pause interruptAt := by
  unfold prepare at h
  split at h
  · cases h
  next c hread =>
    split at h
    · cases h
    · cases h
    next hfirst =>
      split at h
      · cases h
      next q hq =>
        dsimp only at h
        rcases start_cases files cache.settings clock random interruptAt q with
          ⟨setup, program, m, pause, hserves, -, -, hstart⟩ | ⟨_, _, _, _, -, -, hstart⟩ |
            ⟨-, _, _, hstart, -⟩
        · rw [hstart] at h
          exact ⟨q, setup, program, m, pause, ⟨c, hread, hfirst, hq⟩, hserves,
            (Opening.started.inj h).symm⟩
        · rw [hstart] at h
          cases h
        · rw [hstart] at h
          cases h

theorem run_of_started {arguments : List String} {cache : SettingsCache} {st : Start}
    (h : (prepare files cache clock random interruptAt arguments).1 = .started st) :
    (run files cache clock random interruptAt arguments).1 = st.complete files :=
  congrArg (Opening.outcome files) h

/-- The key that a session presses is one. -/
theorem namesKey_opened (s : Settings) (pause : Option Float) :
    Machine.NamesKey (opened q s setup program m pause interruptAt).pace.press := by
  intro ref href
  obtain ⟨k, -, rfl⟩ := Option.map_eq_some_iff.1 href
  have hk := k.isLt
  exact ⟨_, by rw [Key.resolve, Key.ofValue?_of_le (by omega)]⟩

end Tool.Runner
end Chip8
