/-
The runner: loads a program, steps it until it halts, fails or reaches its
limit, and shows the last frame.
-/
import Chip8.Machine.Dump
import Chip8.Tool.Arguments
import Chip8.Tool.Session

namespace Chip8.Tool.Runner

/-- The name of the tool. -/
def name : String := "c8run"

/-! ## Options -/

/-- The options of the tool. -/
inductive OptionId
  | dialect | limit | speed | key | hold | paused | unpaused | dump | trace | live
  | picture | scale | scheme | verbose | version | help
deriving DecidableEq, Repr

/-- The options with their names. -/
def switches : List (Switch OptionId) :=
  [⟨.dialect, ["-q", "--quirks"], true⟩,
    ⟨.limit, ["-n", "--max-steps"], true⟩,
    ⟨.speed, ["-s", "--speed"], true⟩,
    ⟨.key, ["-k", "--key"], true⟩,
    ⟨.hold, ["--hold"], true⟩,
    ⟨.paused, ["--paused"], false⟩,
    ⟨.unpaused, ["--no-paused"], false⟩,
    ⟨.dump, ["--dump"], false⟩,
    ⟨.trace, ["--trace"], false⟩,
    ⟨.live, ["--live"], false⟩,
    ⟨.picture, ["--png"], true⟩,
    ⟨.scale, ["--scale"], true⟩,
    ⟨.scheme, ["--scheme"], true⟩,
    ⟨.verbose, ["-v", "--verbose"], false⟩,
    ⟨.version, ["--version"], false⟩,
    ⟨.help, ["--help"], false⟩]

/-- The texts on a command line that may be paths. -/
def paths (arguments : List String) : List String := mentioned switches [.picture] arguments

/-- What the options ask for. -/
structure Options where
  dialect : Option String := none
  limit : Int := 1000
  speed : Option Int := none
  key : Option String := none
  hold : List String := []
  paused : Option Bool := none
  dump : Bool := false
  trace : Bool := false
  live : Bool := false
  picture : Option Path := none
  scale : Option Int := none
  scheme : Option String := none
  verbose : Bool := false
deriving DecidableEq, Repr

/-- What the command line asks for. -/
structure Request extends Options where
  rom : Path
deriving DecidableEq, Repr

/-- Takes up one option. -/
def takeUp (files : FileTree) (c : CommandLine OptionId) (o : Options) :
    OptionId → Except UsageError Options
  | .dialect => .ok { o with dialect := c.value? .dialect }
  | .limit => do
    return { o with limit := (← optional (integerFrom 1) (c.value? .limit)).getD o.limit }
  | .speed => do return { o with speed := ← optional (integerFrom 0) (c.value? .speed) }
  | .key => .ok { o with key := c.value? .key }
  | .hold => .ok { o with hold := c.values .hold }
  | .paused | .unpaused =>
    .ok { o with paused := (c.last? [.paused, .unpaused]).map (· = .paused) }
  | .dump => .ok { o with dump := true }
  | .trace => .ok { o with trace := true }
  | .live => .ok { o with live := true }
  | .picture => do return { o with picture := ← optional (outputFile files) (c.value? .picture) }
  | .scale => do return { o with scale := ← optional (integerFrom 1) (c.value? .scale) }
  | .scheme => do
    return { o with
      scheme := ← optional (choice (Scheme.all.map Prod.fst)) (c.value? .scheme) }
  | .verbose => .ok { o with verbose := true }
  | .version | .help => .ok o

/-- The request of a command line: its options first, then the program. -/
def request (files : FileTree) (c : CommandLine OptionId) : Except UsageError Request := do
  let options ← c.collect {} (takeUp files c)
  return { toOptions := options, rom := ← onlyFile files c.arguments }

/-! ## Preparing -/

/-- The settings of a run: those of the process, overridden by the request. -/
def settingsFor (r : Request) (s : Settings) : Settings :=
  { s with
    speed := r.speed.getD s.speed
    startHalted := r.paused.getD s.startHalted }

/-- The key that a text refers to. -/
def keyOf (text : String) : Except Problem Key :=
  (Key.resolve (.text text)).mapError fun u => .badArgument u.message

/-- The dialect and the keys of a request. -/
structure Setup where
  dialect : Dialect
  press : Option Key
  held : List Key
deriving DecidableEq, Repr

/-- Resolves the dialect first, then the key to press, then those to hold. -/
def setup (r : Request) (s : Settings) : Except Problem Setup := do
  let dialect ← (Dialect.named (r.dialect.getD s.dialect)).mapError fun u => .badArgument u.message
  let press ← r.key.mapM keyOf
  let held ← r.hold.mapM keyOf
  return { dialect, press, held }

/-- A machine as a setup wants it. -/
def machine (program : List Byte) (s : Settings) (setup : Setup) (clock : Supply Float)
    (random : Supply Byte) : Except Fault Machine :=
  (Machine.load program setup.dialect clock random).map fun m =>
    { m with
      halted := s.startHalted
      keypad := setup.held.foldl (fun p k => p.set k true) m.keypad }

/-! ## Reporting -/

/-- The speed, or that there is no limit to it. -/
def speedText (s : Settings) : String :=
  if s.speed = 0 then "unthrottled" else Numeral.decimal s.speed

/-- What is told before the first step. -/
def openingEvents (r : Request) (program : List Byte) (s : Settings) (setup : Setup) : List Event :=
  if r.verbose then
    [sayErr ("ROM: " ++ r.rom.toString ++ " (" ++ toString program.length ++ " bytes)"),
      sayErr ("Quirks: " ++ setup.dialect.describe),
      sayErr ("Speed: " ++ speedText s)]
  else []

/-- The line on how the run ended; a failure has its own. -/
def endingEvents (s : Settings) (session : Session) : List Event :=
  let m := session.run.machine
  let pc := Numeral.hex 3 m.pc.toNat
  let steps := toString session.run.steps
  if s.startHalted then [sayOut ("Started paused at $" ++ pc ++ "; no steps executed.")]
  else if m.halted then [sayOut ("Execution halted at $" ++ pc ++ " after " ++ steps ++ " steps.")]
  else if session.run.failure.isNone then [sayOut ("Stopped after " ++ steps ++ " steps.")]
  else []

/-- The instruction carried out last. -/
def lastInstruction (session : Session) : Option Instruction :=
  session.run.trace.head?.map Executed.instruction

/-- The last frame, the line on the ending, and the dump. -/
def closingEvents (r : Request) (s : Settings) (session : Session) : List Event :=
  let m := session.run.machine
  (if r.live then [] else [sayOut (Session.frame m.screen)]) ++
  endingEvents s session ++
  (if r.dump then [sayOut "", sayOut (m.dump (lastInstruction session))] else [])

/-- Writes the last frame as a picture, if one is asked for. -/
def pictureEvents (files : FileTree) (r : Request) (s : Settings) (screen : Screen) :
    Except Problem (List Event) :=
  match r.picture with
  | none => .ok []
  | some path => do
    let picture ← (screen.picture (r.scale.getD s.scale) (r.scheme.getD s.scheme)).mapError
      fun e => .unexpected e.message
    let place ← (files.target path).mapError fun e => writeProblem e path
    return .write place (.picture picture) ::
      (if r.verbose then [sayErr ("Frame written to: " ++ path.toString)] else [])

/-- The end of a run after everything has been shown. -/
def conclude (verbose : Bool) (events : List Event) (run : Run) : Outcome :=
  match run.failure with
  | some (.fault f) =>
    stop
      (events ++ debug verbose
        ("Run ended with " ++ f.kind.name ++ " after " ++ toString run.steps ++ " steps"))
      (some "Runtime") (.fault f)
  | some (.unresolvedKey u) => stop events none (.badArgument u.message)
  | none => { events, ending := .exit .success }

/-- Shows what a session has come to. -/
def finish (files : FileTree) (r : Request) (s : Settings) (session : Session) : Outcome :=
  let events := session.log.reverse ++ closingEvents r s session
  match pictureEvents files r s session.run.machine.screen with
  | .error p => stop events none p
  | .ok more => conclude r.verbose (events ++ more) session.run

/-! ## Running -/

/-- A session that is ready for its first step, and how it is to go on. -/
structure Start where
  request : Request
  settings : Settings
  pace : Pace
  session : Session

/-- Where a command line leads: to an end without a step, or to a session. -/
inductive Opening
  | ended (o : Outcome)
  | started (s : Start)

/-- Loads the program of a request. -/
def start (files : FileTree) (settings : Settings) (clock : Supply Float) (random : Supply Byte)
    (interruptAt : Option Nat) (r : Request) : Opening :=
  let s := settingsFor r settings
  match setup r s with
  | .error p => .ended (stop [] none p)
  | .ok setup =>
    match files.loadProgram r.rom with
    | .error e => .ended (stop [] none (loadProblem e))
    | .ok program =>
      let loaded := debug r.verbose
        ("Loaded ROM '" ++ r.rom.name ++ "' (" ++ toString program.length ++ " bytes)")
      match machine program s setup clock random with
      | .error f => .ended (stop loaded none (.fault f))
      | .ok m =>
        let created := loaded ++ debug r.verbose
          ("Machine created: " ++ toString program.length ++ " byte program, quirks: " ++
            setup.dialect.describe)
        match s.pause? with
        | .error e => .ended { events := created, ending := .tooFast e }
        | .ok pause =>
          .started
            { request := r
              settings := s
              pace :=
                { press := setup.press.map fun k => .number k.toNat
                  pause, interruptAt, trace := r.trace, live := r.live, verbose := r.verbose }
              session :=
                { run := { machine := m }
                  log := (created ++ openingEvents r program s setup).reverse } }

/-- Reads the command line and loads the program. The settings of the process
are looked at only for a request that can be served. -/
def prepare (files : FileTree) (cache : SettingsCache) (clock : Supply Float)
    (random : Supply Byte) (interruptAt : Option Nat) (arguments : List String) :
    Opening × SettingsCache :=
  match CommandLine.read switches arguments with
  | .error e => (.ended (rejected e), cache)
  | .ok c =>
    match c.first? [.version, .help] with
    | some .version => (.ended (informed (versionLine name)), cache)
    | some _ => (.ended (informed (helpText name " ROM_FILE" switches)), cache)
    | none =>
      match request files c with
      | .error e => (.ended (rejected e), cache)
      | .ok r => (start files cache.settings clock random interruptAt r, cache.filled)

/-- All that a started session comes to. -/
def Start.complete (files : FileTree) (s : Start) : Outcome :=
  finish files s.request s.settings (s.session.proceed s.pace s.request.limit.toNat)

/-- Where an opening leads in the end. -/
def Opening.outcome (files : FileTree) : Opening → Outcome
  | .ended o => o
  | .started s => s.complete files

/-- All that the tool does for a command line, and the settings of the process
after it. -/
def run (files : FileTree) (cache : SettingsCache) (clock : Supply Float) (random : Supply Byte)
    (interruptAt : Option Nat) (arguments : List String) : Outcome × SettingsCache :=
  let (opening, cache) := prepare files cache clock random interruptAt arguments
  (opening.outcome files, cache)

end Chip8.Tool.Runner
