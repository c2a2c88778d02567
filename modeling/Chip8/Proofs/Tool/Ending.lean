/-
How the runner ends. Once its command line has been understood it ends with an
exit code, unless the speed is beyond every binary64 number: the pause is worked
out where nothing is ready to report that. A program that fails is reported last
of all, so a picture that cannot be made or written takes the report's place.
-/
import Chip8.Proofs.Tool.Line
import Chip8.Proofs.Tool.Runner
import Chip8.Proofs.Tool.Session

namespace Chip8

/-- A fault in a step is not a refusal of the program. -/
theorem Machine.program_not_mem_lineage {m : Machine} {press : Option Key.Reference} {f : Fault}
    (h : (m.step press).1 = .error (.fault f)) : Fault.Kind.program ∉ f.kind.lineage := by
  obtain ⟨-, hkind⟩ := isOfStep h
  simp only [List.mem_cons, List.not_mem_nil, or_false] at hkind
  rcases hkind with h | h | h | h | h <;> simp [h, Fault.Kind.lineage]

namespace Tool.Runner

variable {files : FileTree} {settings : Settings} {clock : Supply Float} {random : Supply Byte}
  {interruptAt : Option Nat} {q : Request} {setup : Setup} {program : List Byte} {m : Machine}

/-! ## Pictures -/

/-- The picture that is asked for, if one is, can be made and written. -/
def Depicts (files : FileTree) (q : Request) (s : Settings) (screen : Screen) : Prop :=
  ∀ path, q.picture = some path →
    (∃ picture, screen.picture (q.scale.getD s.scale) (q.scheme.getD s.scheme) = .ok picture) ∧
      ∃ place, files.target path = .ok place

/-- A picture that cannot be had is a problem of the user's or of the tool's own. -/
theorem pictureEvents_cases (files : FileTree) (q : Request) (s : Settings) (screen : Screen) :
    (Depicts files q s screen ∧ ∃ events, pictureEvents files q s screen = .ok events) ∨
    (¬ Depicts files q s screen ∧ ∃ p, pictureEvents files q s screen = .error p ∧
      (p.exitCode = .invalidArguments ∨ p.exitCode = .internalError)) := by
  unfold pictureEvents
  cases hpath : q.picture with
  | none =>
    refine .inl ⟨?_, [], rfl⟩
    intro path h
    cases hpath.symm.trans h
  | some path =>
    dsimp only
    cases hpicture : screen.picture (q.scale.getD s.scale) (q.scheme.getD s.scheme) with
    | error e =>
      refine .inr ⟨fun h => ?_, _, rfl, .inr rfl⟩
      obtain ⟨⟨picture, hok⟩, -⟩ := h path hpath
      cases hpicture.symm.trans hok
    | ok picture =>
      cases hplace : files.target path with
      | error e =>
        refine .inr ⟨fun h => ?_, _, rfl, ?_⟩
        · obtain ⟨-, place, hok⟩ := h path hpath
          cases hplace.symm.trans hok
        · cases e with
          | notFound => exact .inl rfl
          | _ => exact .inr rfl
      | ok place =>
        refine .inl ⟨?_, _, rfl⟩
        intro path' h
        cases hpath.symm.trans h
        exact ⟨⟨picture, hpicture⟩, place, hplace⟩

/-! ## Ending -/

theorem exists_code_finish (files : FileTree) (q : Request) (s : Settings) (session : Session) :
    ∃ code, (finish files q s session).ending = .exit code := by
  unfold finish
  dsimp only
  split
  · exact ⟨_, rfl⟩
  · unfold conclude
    split <;> exact ⟨_, rfl⟩

theorem ending_of_outOfReach {arguments : List String} {cache : SettingsCache}
    (hasks : Asks files arguments q)
    (hserves : Serves files q (settingsFor q cache.settings) setup program)
    (hspeed : (Binary64.outOfReach : Int) ≤ (settingsFor q cache.settings).speed) :
    (run files cache clock random interruptAt arguments).1.ending =
      .tooFast ⟨(settingsFor q cache.settings).speed⟩ := by
  have hfast := Settings.pause?_eq_error_iff.2 ⟨hspeed, rfl⟩
  rw [run_of_asks hasks]
  rcases start_cases files cache.settings clock random interruptAt q with
    ⟨_, _, _, _, -, -, hpause, -⟩ | ⟨_, _, events, e, -, hpause, hstart⟩ | ⟨hlacks, -⟩
  · cases hpause.symm.trans hfast
  · cases hpause.symm.trans hfast
    rw [hstart]
    rfl
  · exact absurd ⟨setup, program, hserves⟩ hlacks

/-- **How the runner ends.** On a command line that it understands it ends with
an exit code, whatever the environment, the files and the program are, unless it
would come to run a program at a speed that is out of reach of binary64. That
is the one way in which it ends otherwise. -/
theorem exits_unless_outOfReach {arguments : List String} (h : Accepts files arguments)
    (cache : SettingsCache) (clock : Supply Float) (random : Supply Byte)
    (interruptAt : Option Nat) :
    let ending := (run files cache clock random interruptAt arguments).1.ending
    (∀ q setup program, Asks files arguments q →
      Serves files q (settingsFor q cache.settings) setup program →
      (Binary64.outOfReach : Int) ≤ (settingsFor q cache.settings).speed →
        ending = .tooFast ⟨(settingsFor q cache.settings).speed⟩) ∧
    ((¬ ∃ q setup program, Asks files arguments q ∧
        Serves files q (settingsFor q cache.settings) setup program ∧
        (Binary64.outOfReach : Int) ≤ (settingsFor q cache.settings).speed) →
      ∃ code, ending = .exit code) := by
  refine ⟨fun q setup program hasks hserves hspeed =>
    ending_of_outOfReach hasks hserves hspeed, fun hreach => ?_⟩
  obtain ⟨c, hread, hc⟩ := h
  cases hfirst : c.first? [.version, .help] with
  | some id =>
    simp only [run, prepare, hread, hfirst]
    cases id <;> exact ⟨_, rfl⟩
  | none =>
    obtain ⟨q, hq⟩ := hc hfirst
    have hasks : Asks files arguments q := ⟨c, hread, hfirst, hq⟩
    rw [run_of_asks hasks]
    rcases start_cases files cache.settings clock random interruptAt q with
      ⟨_, _, _, _, -, -, -, hstart⟩ | ⟨_, _, _, e, hserves, hpause, -⟩ | ⟨-, o, code, hstart, ho⟩
    · rw [hstart]
      exact exists_code_finish ..
    · exact absurd ⟨q, _, _, hasks, hserves, (Settings.pause?_eq_error_iff.1 hpause).1⟩ hreach
    · rw [hstart]
      exact ⟨code, ho⟩

/-- Nothing but a program that halts at once. -/
def halting : FileTree := { nodes := [(["a.ch8"], .file [0x12, 0x00])] }

theorem asks_halting : Asks halting ["a.ch8"] { rom := .ofString "a.ch8" } := ⟨_, rfl, rfl, by decide +kernel⟩

theorem halting_exits :
    Accepts halting ["a.ch8"] ∧
    ∃ code, (run halting {} (.constant 0) (.constant 0) none ["a.ch8"]).1.ending = .exit code := by
  obtain ⟨c, hread, -, hq⟩ := asks_halting
  have haccepts : Accepts halting ["a.ch8"] := ⟨c, hread, fun _ => ⟨_, hq⟩⟩
  refine ⟨haccepts, (exits_unless_outOfReach haccepts {} (.constant 0) (.constant 0) none).2 ?_⟩
  rintro ⟨q, setup, program, hasks, -, hspeed⟩
  cases hasks.unique asks_halting
  exact absurd hspeed (by decide +kernel)

/-- One and 309 zeros. -/
def hugeText : String := String.ofList ('1' :: List.replicate 309 '0')

theorem outOfReach_le_huge : ∃ n, Text.IntegerLiteral.parse? .decimal hugeText = some n ∧
    (Binary64.outOfReach : Int) ≤ n := by
  have hlist : hugeText.toList = '1' :: List.replicate 309 '0' := String.toList_ofList
  have hdecide : (Text.IntegerLiteral.parse? .decimal hugeText).any
      (fun n => (Binary64.outOfReach : Int) ≤ n) = true := by
    unfold Text.IntegerLiteral.parse? Text.IntegerLiteral.parse
    simp only [hlist]
    decide +kernel
  obtain ⟨n, hn, hle⟩ := (Option.any_eq_true ..).1 hdecide
  exact ⟨n, hn, of_decide_eq_true hle⟩

/-- A process whose environment asks for a speed that is out of reach. -/
def hurried : SettingsCache := { environment := [("CHIP8_SPEED", hugeText)] }

theorem outOfReach_le_hurried : (Binary64.outOfReach : Int) ≤ hurried.settings.speed := by
  obtain ⟨n, hn, hle⟩ := outOfReach_le_huge
  have hpositive : 0 < n := Int.lt_of_lt_of_le (by decide +kernel) hle
  have hne : hugeText ≠ "" := by
    intro h
    rw [h] at hn
    cases hn
  have hvalue : Settings.valueOf? hurried.environment "CHIP8_SPEED" = some hugeText :=
    Option.filter_eq_some_iff.2 ⟨rfl, decide_eq_true hne⟩
  have hspeed : ∀ env, (Settings.ofEnvironment env).speed =
      ((Settings.valueOf? env "CHIP8_SPEED").bind Settings.positive?).getD 700 := fun _ => rfl
  have hsettings : hurried.settings = Settings.ofEnvironment hurried.environment := rfl
  have hfilter : (some n).filter (fun k => decide (0 < k)) = some n :=
    Option.filter_eq_some_iff.2 ⟨rfl, decide_eq_true hpositive⟩
  rw [hsettings, hspeed, hvalue, Option.bind_some, Settings.positive?, hn, hfilter]
  exact hle

theorem ending_halting_of_outOfReach {cache : SettingsCache}
    (hdialect : cache.settings.dialect = "cosmac_vip")
    (hspeed : (Binary64.outOfReach : Int) ≤ cache.settings.speed) :
    (run halting cache clock random interruptAt ["a.ch8"]).1.ending =
      .tooFast ⟨cache.settings.speed⟩ := by
  have hserves : Serves halting { rom := .ofString "a.ch8" }
      (settingsFor { rom := .ofString "a.ch8" } cache.settings) ⟨.standard, none, []⟩
      [0x12, 0x00] := by
    refine ⟨?_, by decide +kernel⟩
    rw [Runner.setup, settingsFor, Option.getD_none, hdialect]
    rfl
  exact ending_of_outOfReach asks_halting hserves hspeed

/-- Nothing reports that speed. -/
theorem hurried_escapes :
    Accepts halting ["a.ch8"] ∧ ¬ ∃ code,
      (run halting hurried (.constant 0) (.constant 0) none ["a.ch8"]).1.ending = .exit code := by
  obtain ⟨c, hread, -, hq⟩ := asks_halting
  refine ⟨⟨c, hread, fun _ => ⟨_, hq⟩⟩, ?_⟩
  rw [ending_halting_of_outOfReach rfl outOfReach_le_hurried]
  rintro ⟨code, hcode⟩
  cases hcode

/-! ## Failing -/

/-- A run that ended with a fault is concluded with its report. -/
theorem conclude_of_fault {n : Machine} {press : Option Key.Reference} {f : Fault} {r : Run}
    (hf : (n.step press).1 = .error (.fault f)) (hr : r.failure = some (.fault f))
    (verbose : Bool) (events : List Event) : conclude verbose events r =
      { events := events ++ debug verbose
          ("Run ended with " ++ f.kind.name ++ " after " ++ toString r.steps ++ " steps") ++
            [.err ("Runtime " ++ f.message ++ "\n")]
        ending := .exit .machineError } := by
  have hkind := Machine.program_not_mem_lineage hf
  have hline : Problem.line (some "Runtime") (.fault f) = "Runtime " ++ f.message := if_neg hkind
  have hcode : Problem.exitCode (.fault f) = .machineError := if_neg hkind
  have hplain : IsPlain ("Runtime " ++ f.message) :=
    IsPlain.append_iff.2 ⟨by decide, Machine.isPlain_message hf⟩
  rw [conclude, hr]
  dsimp only
  rw [stop, hline, hcode, sayErr_eq hplain]

/-- Without its picture a run ends with the exit code for that, however it went. -/
theorem ending_of_not_depicts {s : Settings} {session : Session}
    (h : ¬ Depicts files q s session.run.machine.screen) :
    (finish files q s session).ending = .exit .invalidArguments ∨
      (finish files q s session).ending = .exit .internalError := by
  rcases pictureEvents_cases files q s session.run.machine.screen with
    ⟨hdepicts, -⟩ | ⟨-, p, hp, hcode⟩
  · exact absurd hdepicts h
  · rw [finish, hp]
    exact hcode.imp (congrArg Ending.exit) (congrArg Ending.exit)

/-- **A failure is reported last.** Whatever the command line asks for, let the
steps of a started session end with a failure. That is a fault in a step, and
unless a picture is asked for that cannot be made or written, the runner ends
with the exit code for it, and the last it does is to write the fault behind
`Runtime` to the error stream. With such a picture it ends before that, with
another exit code. -/
theorem failure_isReported_last {arguments : List String} {cache : SettingsCache} {st : Start}
    {e : Machine.Failure}
    (hstart : (prepare files cache clock random interruptAt arguments).1 = .started st)
    (hfails : (st.session.proceed st.pace st.request.limit.toNat).run.failure = some e) :
    let o := (run files cache clock random interruptAt arguments).1
    let screen := (st.session.proceed st.pace st.request.limit.toNat).run.machine.screen
    ∃ f, e = .fault f ∧
      (Depicts files st.request st.settings screen → o.ending = .exit .machineError ∧
        o.events.getLast? = some (.err ("Runtime " ++ f.message ++ "\n"))) ∧
      (¬ Depicts files st.request st.settings screen →
        o.ending = .exit .invalidArguments ∨ o.ending = .exit .internalError) := by
  intro o screen
  obtain ⟨q, setup, program, m, pause, -, -, hst⟩ := opened_of_started hstart
  have hpress : Machine.NamesKey st.pace.press := hst ▸ namesKey_opened _ _
  have hsession : st.session.run = { machine := m } := by rw [hst]; rfl
  obtain ⟨f, rfl, n, hf⟩ := Session.fault_of_failure hpress hsession hfails
  have ho : o = finish files st.request st.settings
      (st.session.proceed st.pace st.request.limit.toNat) := run_of_started hstart
  rw [ho]
  refine ⟨f, rfl, fun hdepicts => ?_, ending_of_not_depicts⟩
  rcases pictureEvents_cases files st.request st.settings screen with
    ⟨-, more, hmore⟩ | ⟨hlacks, -⟩
  · rw [finish, hmore]
    dsimp only
    rw [conclude_of_fault hf hfails]
    exact ⟨rfl, List.getLast?_concat⟩
  · exact absurd hdepicts hlacks

theorem step_machine_of_ret {s : Settings} {press : Option Key.Reference}
    (hm : machine [0x00, 0xEE] s setup clock random = .ok m) (hpress : Machine.NamesKey press) :
    (m.step press).1 = .error (m.faultHere .stackUnderflow) := by
  obtain ⟨new, hload, rfl⟩ := machine_eq_ok_iff.1 hm
  have hnew := Machine.fresh_of_load hload
  refine Machine.step_eq_fault_iff.2 ⟨hpress, rfl, .inr ⟨.ret, ?_, if_pos hnew.depth⟩⟩
  have hret : Instruction.ofWord? (Word.ofBytes 0x00 0xEE) = some .ret := by decide
  exact (congrArg Instruction.ofWord? (hnew.fetch _ _ _ rfl)).trans hret

theorem failure_opened {s : Settings} {pause : Option Float} {e : Machine.Failure}
    (hm : m.halted = false) (hlimit : 0 < q.limit) :
    let st := opened q s setup program m pause interruptAt
    (m.step st.pace.press).1 = .error e →
      (st.session.proceed st.pace st.request.limit.toNat).run.failure = some e := by
  intro st hfails
  obtain ⟨n, hn⟩ : ∃ n, st.request.limit.toNat = n + 1 :=
    Nat.exists_eq_succ_of_ne_zero (by show q.limit.toNat ≠ 0; omega)
  have hover : st.session.isOver = false := by
    show (m.halted || false) = false
    rw [hm]
    rfl
  rw [hn, Session.proceed_of_error hover (Prod.ext hfails rfl)]

/-- Nothing but a program that returns from where it was not called. -/
def underflowing : FileTree := { nodes := [(["a.ch8"], .file [0x00, 0xEE])] }

/-- It fails at its first step, whatever else is asked for. -/
theorem fails_underflowing {arguments : List String} (cache : SettingsCache)
    (hasks : Asks underflowing arguments q) (hrom : q.rom = .ofString "a.ch8")
    (hsetup : Runner.setup q (settingsFor q cache.settings) = .ok setup)
    (hspeed : (settingsFor q cache.settings).speed < Binary64.outOfReach)
    (hawake : (settingsFor q cache.settings).startHalted = false) (hlimit : 0 < q.limit)
    (clock : Supply Float) (random : Supply Byte) (interruptAt : Option Nat) :
    ∃ st f, (prepare underflowing cache clock random interruptAt arguments).1 = .started st ∧
      st.request = q ∧
      (st.session.proceed st.pace st.request.limit.toNat).run.failure = some (.fault f) := by
  have hserves : Serves underflowing q (settingsFor q cache.settings) setup [0x00, 0xEE] :=
    ⟨hsetup, by rw [hrom]; decide +kernel⟩
  obtain ⟨m, pause, hmachine, -, hstart⟩ :=
    exists_started hasks hserves hspeed clock random interruptAt
  have hm : m.halted = false := by
    obtain ⟨new, -, rfl⟩ := machine_eq_ok_iff.1 hmachine
    exact hawake
  exact ⟨_, _, hstart, rfl, failure_opened hm hlimit
    (step_machine_of_ret hmachine (namesKey_opened _ _))⟩

theorem underflow_isReported :
    ∃ st e f, (prepare underflowing {} (.constant 0) (.constant 0) none ["a.ch8"]).1 = .started st ∧
      (st.session.proceed st.pace st.request.limit.toNat).run.failure = some e ∧ e = .fault f ∧
      (run underflowing {} (.constant 0) (.constant 0) none ["a.ch8"]).1.ending =
        .exit .machineError := by
  have hasks : Asks underflowing ["a.ch8"] { rom := .ofString "a.ch8" } := ⟨_, rfl, rfl, by decide +kernel⟩
  have hsetup : Runner.setup { rom := .ofString "a.ch8" } {} = .ok ⟨.standard, none, []⟩ := by decide +kernel
  obtain ⟨st, _, hstart, hq, hfails⟩ :=
    fails_underflowing {} hasks rfl hsetup (by decide +kernel) rfl (by decide)
      (.constant 0) (.constant 0) none
  obtain ⟨f, he, hreported, -⟩ := failure_isReported_last hstart hfails
  have hdepicts : ∀ s screen, Depicts underflowing st.request s screen := by
    intro s screen path hpath
    rw [hq] at hpath
    cases hpath
  exact ⟨st, _, f, hstart, hfails, he, (hreported (hdepicts _ _)).1⟩

/-- The picture is to be written to a directory that is not there. -/
theorem underflow_isConcealed :
    let arguments := ["a.ch8", "--speed", "0", "--png", "no/out.png"]
    ∃ st f, (prepare underflowing {} (.constant 0) (.constant 0) none arguments).1 = .started st ∧
      (st.session.proceed st.pace st.request.limit.toNat).run.failure = some (.fault f) ∧
      (run underflowing {} (.constant 0) (.constant 0) none arguments).1.ending ≠
        .exit .machineError := by
  intro arguments
  have hasks : Asks underflowing arguments
      { rom := .ofString "a.ch8", speed := some 0, picture := some (.ofString "no/out.png") } :=
    ⟨_, rfl, rfl, by decide +kernel⟩
  have hsetup : Runner.setup
      { rom := .ofString "a.ch8", speed := some 0, picture := some (.ofString "no/out.png") }
      { speed := 0 } = .ok ⟨.standard, none, []⟩ := by decide +kernel
  obtain ⟨st, f, hstart, hq, hfails⟩ :=
    fails_underflowing {} hasks rfl hsetup (by decide +kernel) rfl (by decide)
      (.constant 0) (.constant 0) none
  have hlacks : ∀ s screen, ¬ Depicts underflowing st.request s screen := by
    intro s screen h
    obtain ⟨-, place, hplace⟩ := h (.ofString "no/out.png") (by rw [hq])
    have hnowhere : underflowing.target (.ofString "no/out.png") = .error .notFound := by decide +kernel
    cases hplace.symm.trans hnowhere
  refine ⟨st, f, hstart, hfails, ?_⟩
  rw [run_of_started hstart, Start.complete]
  intro hcode
  rcases ending_of_not_depicts (hlacks st.settings _) with h | h
  · cases h.symm.trans hcode
  · cases h.symm.trans hcode

end Tool.Runner
end Chip8
