/-
The font viewer: prints the built-in font, and may draw it to a picture.
-/
import Chip8.FontSheet
import Chip8.Tool.Arguments
import Chip8.Tool.Outcome

namespace Chip8.Tool.FontViewer

/-- The name of the tool. -/
def name : String := "c8font"

/-- The options of the tool. -/
inductive OptionId
  | picture | scale | scheme | version | help
deriving DecidableEq, Repr

/-- The options with their names. -/
def switches : List (Switch OptionId) :=
  [⟨.picture, ["--png"], true⟩,
    ⟨.scale, ["--scale"], true⟩,
    ⟨.scheme, ["--scheme"], true⟩,
    ⟨.version, ["--version"], false⟩,
    ⟨.help, ["--help"], false⟩]

/-- The texts on a command line that may be paths. -/
def paths (arguments : List String) : List String := mentioned switches [.picture] arguments

/-- What the command line asks for. -/
structure Request where
  picture : Option Path := none
  scale : Int := 8
  scheme : String := "dark"
deriving DecidableEq, Repr

/-- Takes up one option. -/
def takeUp (files : FileTree) (c : CommandLine OptionId) (r : Request) :
    OptionId → Except UsageError Request
  | .picture => do return { r with picture := ← optional (outputFile files) (c.value? .picture) }
  | .scale => do
    return { r with scale := (← optional (integerFrom 1) (c.value? .scale)).getD r.scale }
  | .scheme => do
    let scheme ← optional (choice (Scheme.all.map Prod.fst)) (c.value? .scheme)
    return { r with scheme := scheme.getD r.scheme }
  | .version | .help => .ok r

/-- The request of a command line: its options first; there is no argument. -/
def request (files : FileTree) (c : CommandLine OptionId) : Except UsageError Request := do
  let r ← c.collect {} (takeUp files c)
  noArguments c.arguments
  return r

/-- Writes the picture of the font, if one is asked for. -/
def pictureEvents (files : FileTree) (r : Request) (m : Memory) : Except Problem (List Event) :=
  match r.picture with
  | none => .ok []
  | some path => do
    let picture ← ((FontSheet.draw m .blank).picture r.scale r.scheme).mapError
      fun e => .unexpected e.message
    let place ← (files.target path).mapError fun e => writeProblem e path
    return [.write place (.picture picture), sayOut ("Font image written to: " ++ path.toString)]

/-- Shows the font of a memory. -/
def serve (files : FileTree) (r : Request) (m : Memory) : Outcome :=
  let events := [sayOut (FontSheet.sheet m)]
  match pictureEvents files r m with
  | .error p => stop events none p
  | .ok more => { events := events ++ more, ending := .exit .success }

/-- All that the tool does for a command line. -/
def run (files : FileTree) (arguments : List String) : Outcome :=
  match CommandLine.read switches arguments with
  | .error e => rejected e
  | .ok c =>
    match c.first? [.version, .help] with
    | some .version => informed (versionLine name)
    | some _ => informed (helpText name "" switches)
    | none =>
      match request files c with
      | .error e => rejected e
      | .ok r =>
        match Memory.load [] with
        | .error f => stop [] none (.fault f)
        | .ok m => serve files r m

end Chip8.Tool.FontViewer
