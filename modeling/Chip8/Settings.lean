/-
Settings of a run: defaults, what the environment says instead, and the
settings that hold for the whole process.

A variable of the environment that is empty or makes no sense leaves its field
at the default.
-/
import Chip8.Binary64
import Chip8.Dialect
import Chip8.Picture
import Chip8.Text.IntegerLiteral

namespace Chip8

/-- How a program is run and shown. -/
structure Settings where
  /-- The name of a dialect. -/
  dialect : String := "cosmac_vip"
  /-- Instructions a second; none above zero means no limit. -/
  speed : Int := 700
  /-- The name of a colour scheme. -/
  scheme : String := "dark"
  /-- Dots along the side of a pixel. -/
  scale : Int := 8
  /-- Whether the machine is halted at the start. -/
  startHalted : Bool := false
deriving DecidableEq, Repr

/-- The variables of a process, by name. -/
abbrev Environment := List (String × String)

namespace Settings

/-- A speed that no binary64 number is near to. -/
structure TooFast where
  speed : Int
deriving DecidableEq, Repr

/-- The wording of a speed that is too large. -/
def TooFast.message (_ : TooFast) : String := "int too large to convert to float"

/-- The dialect that the settings name. -/
def namedDialect (s : Settings) : Except Dialect.Unknown Dialect := Dialect.named s.dialect

/-- The pause after an instruction in seconds, if the speed has a limit. -/
def pause? (s : Settings) : Except TooFast (Option Float) :=
  if s.speed ≤ 0 then .ok none
  else
    match Binary64.ofInt? s.speed with
    | some perSecond => .ok (some (1.0 / perSecond))
    | none => .error ⟨s.speed⟩

/-- Seconds between two instructions, zero if there is no limit. -/
def interval (s : Settings) : Except TooFast Float := s.pause?.map fun p => p.getD 0.0

/-! ## From the environment -/

/-- The text of a variable, unless it is absent or empty. -/
def valueOf? (env : Environment) (name : String) : Option String :=
  (env.lookup name).filter (· ≠ "")

/-- A text that names a dialect. -/
def dialectText? (text : String) : Option String :=
  match Dialect.named text with
  | .ok _ => some text
  | .error _ => none

/-- The positive integer that a text stands for. -/
def positive? (text : String) : Option Int :=
  (Text.IntegerLiteral.parse? .decimal text).filter (0 < ·)

/-- A text that names a colour scheme. -/
def schemeText? (text : String) : Option String :=
  if (Scheme.named? text).isSome then some text else none

/-- The words for yes. -/
def affirmatives : List String := ["1", "true", "yes", "on"]

/-- Whether a text says yes. -/
def affirms (text : String) : Bool :=
  affirmatives.contains (String.ofList (Text.lower (Text.strip text.toList)))

/-- The settings that an environment asks for. -/
def ofEnvironment (env : Environment) : Settings :=
  let defaults : Settings := {}
  { dialect := ((valueOf? env "CHIP8_QUIRKS").bind dialectText?).getD defaults.dialect
    speed := ((valueOf? env "CHIP8_SPEED").bind positive?).getD defaults.speed
    scheme := ((valueOf? env "CHIP8_SCHEME").bind schemeText?).getD defaults.scheme
    scale := ((valueOf? env "CHIP8_SCALE").bind positive?).getD defaults.scale
    startHalted := ((valueOf? env "CHIP8_START_HALTED").map affirms).getD defaults.startHalted }

end Settings

/-! ## Settings of the process -/

/-- The environment of a process, and the settings taken from it at their
first use or put in place of them. -/
structure SettingsCache where
  environment : Environment := []
  current : Option Settings := none
deriving DecidableEq, Repr

namespace SettingsCache

/-- The settings in force. -/
def settings (c : SettingsCache) : Settings := c.current.getD (.ofEnvironment c.environment)

/-- The cache once its settings have been looked at: they are kept from then on. -/
def filled (c : SettingsCache) : SettingsCache := { c with current := some c.settings }

/-- Puts settings in force, or has them taken from the environment anew. -/
def assign (c : SettingsCache) (s : Option Settings) : SettingsCache := { c with current := s }

/-- Changes the settings in force. -/
def amend (c : SettingsCache) (f : Settings → Settings) : SettingsCache :=
  { c with current := some (f c.settings) }

/-- Replaces the environment. -/
def setEnvironment (c : SettingsCache) (env : Environment) : SettingsCache :=
  { c with environment := env }

end SettingsCache

end Chip8
