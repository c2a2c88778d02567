/-
The runner shows the run of a machine. What it writes, how often it pauses and
how it ends are read off the run that the machine makes on its own: the frames
off the screens after its steps, the lines of a trace off the steps, and the
closing line and the exit code off how it ended.
-/
import Chip8.Proofs.Tool.Ending
import Chip8.Proofs.Tool.Frame

namespace Chip8

/-! ## The machine of a run -/

theorem Keypad.isHeld_foldl (keys : List Key) (p : Keypad) (k : Key) :
    (keys.foldl (fun p k => p.set k true) p).isHeld k = true ↔ k ∈ keys ∨ p.isHeld k = true := by
  induction keys generalizing p with
  | nil => simp
  | cons l keys ih =>
    rw [List.foldl_cons, ih, Keypad.isHeld_set, List.mem_cons]
    by_cases h : l = k
    · simp [h]
    · have hne : k ≠ l := Ne.symm h
      simp [h, hne]

namespace Machine

/-- A machine with more keys held down. -/
def holding (m : Machine) (keys : List Key) : Machine :=
  { m with keypad := keys.foldl (fun p k => p.set k true) m.keypad }

end Machine

namespace Tool

/-! ## What is written -/

/-- What events come to: all that goes to the two streams, text by text, the
pauses, and the files. -/
structure Streams where
  out : List String := []
  err : List String := []
  pauses : List Float := []
  files : List (Place × Document) := []

namespace Streams

instance : Append Streams where
  append a b := ⟨a.out ++ b.out, a.err ++ b.err, a.pauses ++ b.pauses, a.files ++ b.files⟩

theorem append_eq (a b : Streams) :
    a ++ b = ⟨a.out ++ b.out, a.err ++ b.err, a.pauses ++ b.pauses, a.files ++ b.files⟩ := rfl

/-- All that events come to, one after another. -/
def ofEvents (events : List Event) : Streams where
  out := events.filterMap fun
    | .out text => some text
    | _ => none
  err := events.filterMap fun
    | .err text => some text
    | _ => none
  pauses := events.filterMap fun
    | .pause seconds => some seconds
    | _ => none
  files := events.filterMap fun
    | .write place document => some (place, document)
    | _ => none

theorem ofEvents_append (es fs : List Event) :
    ofEvents (es ++ fs) = ofEvents es ++ ofEvents fs := by
  simp [ofEvents, append_eq]

theorem ofEvents_outs (ts : List String) : ofEvents (ts.map .out) = { out := ts } := by
  simp [ofEvents]

theorem ofEvents_errs (ts : List String) : ofEvents (ts.map .err) = { err := ts } := by
  simp [ofEvents]

theorem ofEvents_pauses (ts : List Float) : ofEvents (ts.map .pause) = { pauses := ts } := by
  simp [ofEvents]

end Streams

/-- Texts as the lines that they are written in. -/
def lines (texts : List String) : List String := texts.map (· ++ "\n")

/-- A note for those who look for faults. -/
def notes (verbose : Bool) (text : String) : List String :=
  if verbose then ["DEBUG: " ++ text] else []

theorem lines_append (ts us : List String) : lines (ts ++ us) = lines ts ++ lines us :=
  List.map_append

theorem debug_eq (verbose : Bool) (text : String) :
    debug verbose text = (lines (notes verbose text)).map .err := by
  cases verbose <;> rfl

namespace Session

variable {p : Pace} {m : Machine}

/-- The lines on a step: a note if it jumps to itself, and its line in a trace. -/
def stepLines (verbose trace : Bool) (e : Executed) : List String :=
  (if jumpsToItself e then
      notes verbose ("Self-jump at $" ++ Numeral.hex 4 e.address.toNat ++ ", halting")
    else []) ++
  (if trace then ["$" ++ Numeral.hex 3 e.address.toNat ++ ": " ++ e.instruction.assembly] else [])

/-- The frames that are shown in the course of so many steps. -/
def liveFrames (m : Machine) (press : Option Key.Reference) (steps : Nat) : List String :=
  (List.range steps).map fun k => frame (m.afterSteps press (k + 1)).screen

theorem liveFrames_succ (m : Machine) (press : Option Key.Reference) (steps : Nat) :
    liveFrames m press (steps + 1) =
      frame (m.step press).2.screen :: liveFrames (m.step press).2 press steps := by
  rw [liveFrames, List.range_succ_eq_map, List.map_cons, List.map_map]
  rfl

theorem toldOf_eq (p : Pace) (e : Executed) :
    toldOf p e = (lines (stepLines p.verbose p.trace e)).map .err := by
  rw [toldOf, stepLines, sayErr_traceLine, debug_eq]
  cases p.trace <;> cases jumpsToItself e <;> simp [lines]

theorem frameEvents_eq (p : Pace) (m : Machine) :
    frameEvents p m = (lines (if p.live then [frame m.screen] else [])).map .out := by
  rw [frameEvents, sayOut_eq (isPlain_frame m.screen)]
  cases p.live <;> rfl

/-- What the steps of a session come to. -/
theorem streams_work (es : List Executed) : Streams.ofEvents (work p m es) =
    { out := lines (if p.live then liveFrames m p.press es.length else [])
      err := lines (es.flatMap (stepLines p.verbose p.trace))
      pauses := p.pause.elim [] (List.replicate es.length) } := by
  induction es generalizing m with
  | nil => cases p.live <;> cases p.pause <;> rfl
  | cons e es ih =>
    simp only [work, toldOf_eq, frameEvents_eq, Streams.ofEvents_append, Streams.ofEvents_errs,
      Streams.ofEvents_outs, Streams.ofEvents_pauses, ih, Streams.append_eq, List.nil_append,
      List.append_nil, List.length_cons, liveFrames_succ, List.flatMap_cons, lines_append]
    cases p.live <;> cases p.pause <;> rfl

/-- The note on a word that is no instruction. -/
def decodingNote (verbose : Bool) (m : Machine) (f : Fault) : List String :=
  if Fault.Kind.decoding ∈ f.kind.lineage then
    notes verbose ("Decode failure at $" ++ Numeral.hex 4 m.pc.toNat ++ ": word $" ++
      Numeral.hex 4 m.fetch.toNat)
  else []

theorem failureEvents_eq (p : Pace) (m : Machine) (f : Fault) :
    failureEvents p m (.fault f) = (lines (decodingNote p.verbose m f)).map .err := by
  rw [failureEvents, decodingNote, debug_eq]
  split <;> rfl

end Session

namespace Runner

/-! ## What a run looks like -/

/-- The frames of a run: one after each step if it is shown live, and else the
last one alone. -/
def frames (live : Bool) (m : Machine) (press : Option Key.Reference) (r : Run) : List String :=
  if live then Session.liveFrames m press r.steps else [Session.frame r.machine.screen]

/-- The line on how a run has ended. -/
def endLines (r : Run) : List String :=
  if r.failure.isSome then []
  else if r.machine.halted then
    ["Execution halted at $" ++ Numeral.hex 3 r.machine.pc.toNat ++ " after " ++
      toString r.steps ++ " steps."]
  else ["Stopped after " ++ toString r.steps ++ " steps."]

/-- The state at the end of a run. -/
def dumpTexts (dump : Bool) (r : Run) : List String :=
  if dump then ["", r.machine.dump (r.trace.head?.map Executed.instruction)] else []

/-- All that a run shows. -/
def shownTexts (q : Request) (m : Machine) (press : Option Key.Reference) (r : Run) : List String :=
  frames q.live m press r ++ endLines r ++ dumpTexts q.dump r

/-- The lines on the failure of a run, the report last. -/
def failureLines (verbose : Bool) (m : Machine) (press : Option Key.Reference) (r : Run) :
    List String :=
  match r.failure with
  | some (.fault f) =>
    Session.decodingNote verbose (m.afterSteps press r.steps) f ++
      notes verbose
        ("Run ended with " ++ f.kind.name ++ " after " ++ toString r.steps ++ " steps") ++
      ["Runtime " ++ f.message]
  | _ => []

variable {q : Request} {s : Settings} {session : Session}

theorem endingEvents_eq (hs : s.startHalted = false)
    (hfails : ∀ e, session.run.failure = some e → session.run.machine.halted = false) :
    endingEvents s session = (lines (endLines session.run)).map .out := by
  have hhalted : IsPlain ("Execution halted at $" ++ Numeral.hex 3 session.run.machine.pc.toNat ++
      " after " ++ toString session.run.steps ++ " steps.") := by
    simp only [IsPlain.append_iff, IsPlain.hex, IsPlain.count, and_true]
    decide
  have hstopped : IsPlain ("Stopped after " ++ toString session.run.steps ++ " steps.") := by
    simp only [IsPlain.append_iff, IsPlain.count, and_true]
    decide
  rw [endingEvents, sayOut_eq hhalted, sayOut_eq hstopped, hs, if_neg Bool.false_ne_true, endLines]
  cases hf : session.run.failure with
  | none => cases session.run.machine.halted <;> rfl
  | some e =>
    rw [hfails e hf]
    rfl

theorem closingEvents_eq (hs : s.startHalted = false)
    (hfails : ∀ e, session.run.failure = some e → session.run.machine.halted = false) :
    closingEvents q s session =
      (lines ((if q.live then [] else [Session.frame session.run.machine.screen]) ++
        endLines session.run ++ dumpTexts q.dump session.run)).map .out := by
  have hempty : sayOut "" = .out ("" ++ "\n") := sayOut_eq (by decide)
  rw [closingEvents, endingEvents_eq hs hfails, sayOut_eq (isPlain_frame _), hempty,
    sayOut_eq (isPlain_dump _ _), dumpTexts]
  cases q.live <;> cases q.dump <;> simp [lines, lastInstruction]

/-! ## The runner and the run -/

/-- What the runner shows of a run of a machine, if it pauses so long after each
step and has told so much on the error stream before the first. -/
structure Shows (q : Request) (m : Machine) (press : Option Key.Reference) (r : Run)
    (pause : Option Float) (told : List String) (o : Outcome) : Prop where
  /-- A failed run ends with the exit code for it, any other with success. -/
  ending : o.ending = .exit (if r.failure.isSome then .machineError else .success)
  stdout : o.stdout = String.join (lines (shownTexts q m press r))
  stderr : o.stderr = String.join (told ++
    lines (r.trace.reverse.flatMap (Session.stepLines q.verbose q.trace) ++
      failureLines q.verbose m press r))
  pauses : o.pauses = pause.elim [] (List.replicate r.steps)
  written : o.written = []
  /-- The last frame is that of the machine at the end of the run. -/
  lastFrame : (frames q.live m press r).getLast? =
    if q.live ∧ r.steps = 0 then none else some (Session.frame r.machine.screen)
  /-- The lines inside of a last frame are the rows of that machine's screen, and of no other. -/
  lastScreen : ∀ text, (frames q.live m press r).getLast? = some text →
    ∀ s : Screen, Session.inside text = s.textRows "#" " " ↔ s = r.machine.screen
  halted : (∃ t, "Execution halted at " ++ t ∈ shownTexts q m press r) ↔ r.machine.halted = true
  stopped : (∃ t, "Stopped after " ++ t ∈ shownTexts q m press r) ↔
    r.machine.halted = false ∧ r.failure = none
  /-- The report of a failure stands last. -/
  reported : ∀ e, r.failure = some e →
    (failureLines q.verbose m press r).getLast? = some ("Runtime " ++ e.message)

theorem getLast?_frames {m : Machine} {press : Option Key.Reference} {limit : Nat} {r : Run}
    (h : m.IteratesStep press limit r) (live : Bool) : (frames live m press r).getLast? =
      if live ∧ r.steps = 0 then none else some (Session.frame r.machine.screen) := by
  rw [frames, h.screen]
  cases live with
  | false => rfl
  | true =>
    rw [if_pos rfl, Session.liveFrames]
    cases hsteps : r.steps with
    | zero => rfl
    | succ k => simp [List.range_succ]

theorem screen_of_getLast?_frames {m : Machine} {press : Option Key.Reference} {limit : Nat}
    {r : Run} (h : m.IteratesStep press limit r) {live : Bool} {text : String}
    (htext : (frames live m press r).getLast? = some text) (s : Screen) :
    Session.inside text = s.textRows "#" " " ↔ s = r.machine.screen := by
  rw [getLast?_frames h] at htext
  split at htext
  · cases htext
  · rw [← Option.some.inj htext]
    exact Session.inside_frame_eq_iff

theorem head?_intercalate {sep t : String} {ts : List String} {c : Char}
    (h : t.toList.head? = some c) :
    (String.intercalate sep (t :: ts)).toList.head? = some c := by
  rw [String.toList_intercalate, List.map_cons, Text.intercalate_cons, List.head?_append, h]
  rfl

/-- A frame starts with a corner of its border. -/
theorem head?_frame (s : Screen) : (Session.frame s).toList.head? = some '+' := by
  apply head?_intercalate
  rw [String.append_assoc, String.toList_append, List.head?_append]
  rfl

theorem head?_dump (m : Machine) (last : Option Instruction) :
    (m.dump last).toList.head? = some 'R' :=
  head?_intercalate rfl

/-- What starts otherwise than a frame and a dump is a line on the ending. -/
theorem mem_shownTexts_iff {m : Machine} {press : Option Key.Reference} {r : Run} {t : String}
    {c : Char} (ht : t.toList.head? = some c) (hplus : c ≠ '+') (hR : c ≠ 'R') :
    t ∈ shownTexts q m press r ↔ t ∈ endLines r := by
  have hframe : ∀ s, t ≠ Session.frame s := by
    intro s h
    rw [h, head?_frame] at ht
    exact hplus (Option.some.inj ht).symm
  have hframes : t ∉ frames q.live m press r := by
    intro h
    rw [frames] at h
    split at h
    · obtain ⟨k, -, hk⟩ := List.mem_map.1 h
      exact hframe _ hk.symm
    · exact hframe _ (List.mem_singleton.1 h)
  have hdump : t ∉ dumpTexts q.dump r := by
    intro h
    rw [dumpTexts] at h
    split at h
    · rw [List.mem_cons, List.mem_singleton] at h
      rcases h with h | h
      · rw [h] at ht
        cases ht
      · rw [h, head?_dump] at ht
        exact hR (Option.some.inj ht).symm
    · cases h
  simp [shownTexts, hframes, hdump]

theorem streams_preamble (q : Request) (s : Settings) (setup : Setup) (program : List Byte) :
    Streams.ofEvents (preamble q s setup program) =
      { err := (Streams.ofEvents (preamble q s setup program)).err } := by
  unfold preamble openingEvents
  cases q.verbose <;> rfl

theorem head?_halted (t : String) : ("Execution halted at " ++ t).toList.head? = some 'E' := by
  rw [String.toList_append, List.head?_append]
  rfl

theorem head?_stopped (t : String) : ("Stopped after " ++ t).toList.head? = some 'S' := by
  rw [String.toList_append, List.head?_append]
  rfl

/-- The line on a halt is shown for one. -/
theorem mem_halted_iff {m : Machine} {press : Option Key.Reference} {r : Run}
    (hfails : ∀ e, r.failure = some e → r.machine.halted = false) :
    (∃ t, "Execution halted at " ++ t ∈ shownTexts q m press r) ↔ r.machine.halted = true := by
  simp only [mem_shownTexts_iff (head?_halted _) (by decide) (by decide), endLines]
  cases hf : r.failure with
  | some e => simp [hfails e hf]
  | none =>
    cases r.machine.halted with
    | true =>
      refine iff_of_true ⟨"$" ++ Numeral.hex 3 r.machine.pc.toNat ++ " after " ++
        toString r.steps ++ " steps.", ?_⟩ rfl
      exact List.mem_singleton.2 (by simp [← String.append_assoc])
    | false =>
      refine iff_of_false ?_ Bool.false_ne_true
      rintro ⟨t, ht⟩
      have hhead := head?_halted t
      rw [List.mem_singleton.1 ht, String.append_assoc, head?_stopped] at hhead
      cases hhead

/-- So is the line on a stop. -/
theorem mem_stopped_iff {m : Machine} {press : Option Key.Reference} {r : Run} :
    (∃ t, "Stopped after " ++ t ∈ shownTexts q m press r) ↔
      r.machine.halted = false ∧ r.failure = none := by
  simp only [mem_shownTexts_iff (head?_stopped _) (by decide) (by decide), endLines]
  cases r.failure with
  | some e => simp
  | none =>
    cases r.machine.halted with
    | true =>
      refine iff_of_false ?_ (by simp)
      rintro ⟨t, ht⟩
      have hline : "Execution halted at $" = "Execution halted at " ++ "$" := rfl
      have hhead := head?_stopped t
      rw [List.mem_singleton.1 ht, hline, String.append_assoc, String.append_assoc,
        String.append_assoc, String.append_assoc, head?_halted] at hhead
      cases hhead
    | false =>
      refine iff_of_true ⟨toString r.steps ++ " steps.", ?_⟩ ⟨rfl, rfl⟩
      exact List.mem_singleton.2 (by simp [← String.append_assoc])

/-- What a session comes to that has gone through the run of its machine. -/
theorem streams_finish (files : FileTree) {m : Machine} {p : Pace} {told : List Event}
    (hp : p.live = q.live ∧ p.trace = q.trace ∧ p.verbose = q.verbose)
    (hlog : session.log.reverse = told ++ Session.chronicle p m session.run)
    (hpaused : s.startHalted = false) (hpicture : q.picture = none)
    (hhalted : ∀ e, session.run.failure = some e → session.run.machine.halted = false)
    (hfault : ∀ e, session.run.failure = some e →
      ∃ f, e = .fault f ∧ ∃ n : Machine, (n.step p.press).1 = .error (.fault f)) :
    Streams.ofEvents (finish files q s session).events = Streams.ofEvents told ++
      { out := lines (shownTexts q m p.press session.run)
        err := lines (session.run.trace.reverse.flatMap (Session.stepLines q.verbose q.trace) ++
          failureLines q.verbose m p.press session.run)
        pauses := p.pause.elim [] (List.replicate session.run.steps) } ∧
    (finish files q s session).ending =
      .exit (if session.run.failure.isSome then .machineError else .success) := by
  obtain ⟨hlive, htrace, hverbose⟩ := hp
  have hpictureEvents : pictureEvents files q s session.run.machine.screen = .ok [] := by
    rw [pictureEvents, hpicture]
  have hsteps : session.run.trace.reverse.length = session.run.steps := List.length_reverse
  have hframes : lines (if q.live then Session.liveFrames m p.press session.run.steps else []) ++
      lines (if q.live then [] else [Session.frame session.run.machine.screen]) =
      lines (frames q.live m p.press session.run) := by
    rw [← lines_append, frames]
    cases q.live <;> simp
  rw [finish, hpictureEvents, hlog, closingEvents_eq hpaused hhalted]
  dsimp only
  rw [List.append_nil, Session.chronicle]
  cases hf : session.run.failure with
  | none =>
    rw [conclude, hf]
    refine ⟨?_, rfl⟩
    simp only [Streams.ofEvents_append, Session.streams_work, Streams.ofEvents_outs, hsteps, hlive,
      htrace, hverbose, failureLines, hf, List.append_nil, Streams.append_eq, shownTexts,
      lines_append, ← hframes, List.append_assoc]
  | some e =>
    obtain ⟨f, rfl, n, hn⟩ := hfault e hf
    have hreport : Streams.ofEvents [.err ("Runtime " ++ f.message ++ "\n")] =
        { err := lines ["Runtime " ++ f.message] } := rfl
    rw [conclude_of_fault hn hf]
    refine ⟨?_, rfl⟩
    simp only [Session.failureEvents_eq, debug_eq, hreport, Streams.ofEvents_append,
      Session.streams_work, Streams.ofEvents_outs, Streams.ofEvents_errs, hsteps, hlive, htrace,
      hverbose, failureLines, hf, List.append_nil, List.nil_append, Streams.append_eq, shownTexts,
      lines_append, ← hframes, List.append_assoc]

/-- A session without interruptions goes through the whole run. -/
theorem session_opened (q : Request) (s : Settings) (setup : Setup) (program : List Byte)
    (m : Machine) (pause : Option Float) :
    let st := opened q s setup program m pause none
    let session := st.session.proceed st.pace q.limit.toNat
    session.run = m.run q.limit st.pace.press ∧
      session.log.reverse =
        preamble q s setup program ++ Session.chronicle st.pace m session.run := by
  intro st session
  obtain ⟨hrun, hlog⟩ :=
    Session.proceed_eq (p := st.pace) (s := st.session) rfl rfl rfl q.limit.toNat
  have hwhole : session.run = m.run q.limit st.pace.press := by
    rw [hrun, Run.behind, List.append_nil]
    rfl
  have htold : st.session.log.reverse = preamble q s setup program := List.reverse_reverse _
  exact ⟨hwhole, by rw [hlog, htold, hwhole]; rfl⟩

theorem complete_shows (files : FileTree) (setup : Setup) (program : List Byte) (m : Machine)
    (pause : Option Float) (hpaused : s.startHalted = false) (hpicture : q.picture = none) :
    let press := setup.press.map fun k => Key.Reference.number k.toNat
    Shows q m press (m.run q.limit press) pause (Streams.ofEvents (preamble q s setup program)).err
      ((opened q s setup program m pause none).complete files) := by
  intro press
  have hsteps : m.IteratesStep press q.limit.toNat (m.run q.limit press) :=
    Machine.proceed_iteratesStep m press q.limit.toNat
  have hhalted : ∀ e, (m.run q.limit press).failure = some e →
      (m.run q.limit press).machine.halted = false := fun e he => hsteps.not_halted he
  obtain ⟨hrun, hlog⟩ := session_opened q s setup program m pause
  have hfault : ∀ e, (m.run q.limit press).failure = some e →
      ∃ f, e = .fault f ∧ ∃ n : Machine, (n.step press).1 = .error (.fault f) := fun e he =>
    Session.fault_of_failure (namesKey_opened s pause) rfl ((congrArg Run.failure hrun).trans he)
  obtain ⟨hstreams, hending⟩ := streams_finish files ⟨rfl, rfl, rfl⟩ hlog hpaused hpicture
    (by rw [hrun]; exact hhalted) (by rw [hrun]; exact hfault)
  rw [hrun] at hstreams hending
  rw [streams_preamble, Streams.append_eq] at hstreams
  simp only [List.nil_append] at hstreams
  refine {
    ending := hending
    stdout := congrArg (fun t : Streams => String.join t.out) hstreams
    stderr := congrArg (fun t : Streams => String.join t.err) hstreams
    pauses := congrArg Streams.pauses hstreams
    written := congrArg Streams.files hstreams
    lastFrame := getLast?_frames hsteps q.live
    lastScreen := fun _ htext => screen_of_getLast?_frames hsteps htext
    halted := mem_halted_iff hhalted
    stopped := mem_stopped_iff
    reported := fun e he => ?_ }
  obtain ⟨f, rfl, -⟩ := hfault e he
  rw [failureLines, he]
  exact List.getLast?_concat

variable {files : FileTree} {arguments : List String} {cache : SettingsCache} {setup : Setup}
  {program : List Byte} {perSecond : Float}

/-- **The runner shows the run of the machine.** Let a command line ask for a run
that neither begins paused nor makes a picture, of a program that fits, in a
dialect and with keys that are known, at a speed that binary64 reaches. Load the
machine with that program and hold the keys down. If nobody interrupts, what the
runner writes, how often it pauses and how it ends is what the machine's own run
shows, with the same limit, key, clock and random bytes. -/
theorem run_shows (hasks : Asks files arguments q)
    (hsetup : Runner.setup q (settingsFor q cache.settings) = .ok setup)
    (hread : files.read q.rom = .ok program) (hlength : program.length ≤ 0xE00)
    (hspeed : Binary64.ofInt? (settingsFor q cache.settings).speed = some perSecond)
    (hpaused : (settingsFor q cache.settings).startHalted = false) (hpicture : q.picture = none)
    (clock : Supply Float) (random : Supply Byte) :
    ∃ new, Machine.load program setup.dialect clock random = .ok new ∧
      let m := new.holding setup.held
      let press := setup.press.map fun k => Key.Reference.number k.toNat
      (∀ k, m.keypad.isHeld k = true ↔ k ∈ setup.held) ∧
      Shows q m press (m.run q.limit press)
        (if (settingsFor q cache.settings).speed ≤ 0 then none else some (1.0 / perSecond))
        (Streams.ofEvents (preamble q (settingsFor q cache.settings) setup program)).err
        (run files cache clock random none arguments).1 := by
  have hserves : Serves files q (settingsFor q cache.settings) setup program :=
    ⟨hsetup, FileTree.loadProgram_eq_ok_iff.2 ⟨hread, hlength⟩⟩
  have hreach : (settingsFor q cache.settings).speed < Binary64.outOfReach := by
    have hsome := mt Binary64.ofInt?_eq_none_iff.2 (by rw [hspeed]; nofun)
    omega
  obtain ⟨m, pause, hmachine, hpause, hstart⟩ :=
    exists_started hasks hserves hreach clock random none
  cases hpause.symm.trans (Settings.pause?_eq hspeed)
  obtain ⟨new, hload, hnew⟩ := machine_eq_ok_iff.1 hmachine
  have hfresh := Machine.fresh_of_load hload
  have hm : new.holding setup.held = m := by
    rw [← hnew, hpaused, ← hfresh.halted]
    rfl
  refine ⟨new, hload, fun k => ?_, ?_⟩
  · have hnone : Keypad.released.isHeld k = false := by
      simp [Keypad.released, Keypad.isHeld]
    rw [Machine.holding, hfresh.keypad, Keypad.isHeld_foldl, hnone]
    simp
  rw [hm, run_of_started hstart]
  exact complete_shows files setup program m _ hpaused hpicture

/-- The machine of `halting` halts at its first step. -/
theorem run_halting {new : Machine} {clock : Supply Float} {random : Supply Byte}
    (hload : Machine.load [0x12, 0x00] .standard clock random = .ok new) :
    ∃ next, (new.holding []).run 1000 none =
      { machine := next, trace := [⟨0x200, .jump 0x200⟩] } := by
  have hnew := Machine.fresh_of_load hload
  have hjump : Instruction.ofWord? (Word.ofBytes 0x12 0x00) = some (.jump 0x200) := by decide
  have hfetch : Instruction.ofWord? (new.holding []).fetch = some (.jump 0x200) :=
    (congrArg Instruction.ofWord? (hnew.fetch _ _ _ rfl)).trans hjump
  have hpc : (new.holding []).pc = 0x200 := hnew.pc
  have hrun : (new.holding []).run 1000 none =
      { machine := ((new.holding []).step none).2, trace := [⟨(new.holding []).pc, .jump 0x200⟩] } :=
    Machine.run_of_selfJump hnew.halted (by decide) Machine.namesKey_none (by rw [hpc]; rfl) hfetch
  rw [hpc] at hrun
  exact ⟨_, hrun⟩

/-- One step, one line, one pause. -/
theorem halting_shown :
    let o := (run halting {} (.constant 0) (.constant 0) none ["a.ch8", "--trace"]).1
    o.ending = .exit .success ∧ o.stderr = "$200: JP $200\n" ∧ o.pauses.length = 1 := by
  intro o
  have hasks : Asks halting ["a.ch8", "--trace"] { rom := .ofString "a.ch8", trace := true } :=
    ⟨_, rfl, rfl, by decide +kernel⟩
  have hsetup : Runner.setup { rom := .ofString "a.ch8", trace := true } {} =
      .ok ⟨.standard, none, []⟩ := by decide +kernel
  have hread : halting.read (.ofString "a.ch8") = .ok [0x12, 0x00] := by decide +kernel
  obtain ⟨perSecond, hspeed⟩ : ∃ perSecond, Binary64.ofInt? 700 = some perSecond :=
    Option.ne_none_iff_exists'.1 (mt Binary64.ofInt?_eq_none_iff.1 (by decide +kernel))
  obtain ⟨new, hload, -, hshows⟩ :=
    @run_shows _ halting _ {} _ _ _ hasks hsetup hread (by decide) hspeed rfl rfl
      (.constant 0) (.constant 0)
  obtain ⟨next, hrun⟩ := run_halting hload
  have hshows' : Shows { rom := .ofString "a.ch8", trace := true } (new.holding []) none
      ((new.holding []).run 1000 none) (some (1.0 / perSecond)) [] o := hshows
  rw [hrun] at hshows'
  exact ⟨hshows'.ending, hshows'.stderr, congrArg List.length hshows'.pauses⟩

end Runner

end Tool
end Chip8
