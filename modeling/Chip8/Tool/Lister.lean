/-
The lister: writes the listing of a program, maybe with a dump of its bytes in
front.
-/
import Chip8.Listing
import Chip8.Text.LetterCase
import Chip8.Tool.Arguments
import Chip8.Tool.Outcome

namespace Chip8.Tool.Lister

/-- The name of the tool. -/
def name : String := "c8disasm"

/-! ## Options -/

/-- The options of the tool. -/
inductive OptionId
  | output | address | count | dump | brief | verbose | version | help
deriving DecidableEq, Repr

/-- The options with their names. -/
def switches : List (Switch OptionId) :=
  [⟨.output, ["-o", "--output"], true⟩,
    ⟨.address, ["-a", "--address"], true⟩,
    ⟨.count, ["-c", "--count"], true⟩,
    ⟨.dump, ["--hex"], false⟩,
    ⟨.brief, ["--no-bytes"], false⟩,
    ⟨.verbose, ["-v", "--verbose"], false⟩,
    ⟨.version, ["--version"], false⟩,
    ⟨.help, ["--help"], false⟩]

/-- The texts on a command line that may be paths. -/
def paths (arguments : List String) : List String := mentioned switches [.output] arguments

/-- What the options ask for. -/
structure Options where
  address : String := "0x200"
  count : Option Int := none
  output : Option Path := none
  dump : Bool := false
  brief : Bool := false
  verbose : Bool := false
deriving DecidableEq, Repr

/-- What the command line asks for. -/
structure Request extends Options where
  input : Path
deriving DecidableEq, Repr

/-- Takes up one option. -/
def takeUp (files : FileTree) (c : CommandLine OptionId) (o : Options) :
    OptionId → Except UsageError Options
  | .output => do return { o with output := ← optional (outputFile files) (c.value? .output) }
  | .address => .ok { o with address := (c.value? .address).getD o.address }
  | .count => do return { o with count := ← optional integer (c.value? .count) }
  | .dump => .ok { o with dump := true }
  | .brief => .ok { o with brief := true }
  | .verbose => .ok { o with verbose := true }
  | .version | .help => .ok o

/-- The request of a command line: its options first, then the program. -/
def request (files : FileTree) (c : CommandLine OptionId) : Except UsageError Request := do
  let options ← c.collect {} (takeUp files c)
  return { toOptions := options, input := ← onlyFile files c.arguments }

/-! ## The address -/

/-- The address that a text stands for: hexadecimal behind `0x` or `$`, decimal
otherwise. -/
def parseAddress? (text : String) : Option Int :=
  let cs := text.toList
  if ['0', 'x'].isPrefixOf (Text.lower cs) then Text.IntegerLiteral.parse? .hexadecimal text
  else
    match cs with
    | '$' :: digits => Text.IntegerLiteral.parse? .hexadecimal (String.ofList digits)
    | _ => Text.IntegerLiteral.parse? .decimal text

/-- The address of the first byte. -/
def baseAddress (text : String) : Except Problem Int :=
  match parseAddress? text with
  | none => .error (.badArgument ("Invalid address '" ++ text ++ "'"))
  | some n =>
    if 0 ≤ n ∧ n ≤ 0xFFF then .ok n
    else .error (.badArgument "Address must be 0-4095 (0x000-0xFFF)")

/-! ## The text -/

/-- A line between the dump and what is around it. -/
def rule : String := "; " ++ String.ofList (List.replicate 60 '-')

/-- What stands above the listing. -/
def header (fileName : String) (image : List Byte) (base : Int) : List String :=
  ["; Disassembly of " ++ fileName,
    "; Size: " ++ toString image.length ++ " bytes",
    "; Base address: $" ++ Numeral.hex 3 base,
    ""]

/-- The dump between its rules. -/
def dumpSection (image : List Byte) (base : Int) : List String :=
  "; Hex dump:" :: rule :: Listing.dumpLines image base ++ [rule, ""]

/-- The line of an entry, with or without its bytes. -/
def entryLine (brief : Bool) (e : Listing.Entry) : String := if brief then e.briefLine else e.line

/-- The whole text. -/
def document (r : Request) (image : List Byte) (base : Int) (entries : List Listing.Entry) : String :=
  String.intercalate "\n"
    (header r.input.name image base ++
      (if r.dump then dumpSection image base else []) ++
      entries.map (entryLine r.brief)) ++ "\n"

/-! ## Listing -/

/-- Puts the text on the output stream or into a file. -/
def deliver (files : FileTree) (r : Request) (text : String) : Except Problem (List Event) :=
  match r.output with
  | none => .ok [.out (plain text)]
  | some path =>
    match files.target path with
    | .error e => .error (.unwritten path.toString (e.message path))
    | .ok place =>
      .ok (.write place (.text text) ::
        if r.verbose then [sayErr ("Output written to: " ++ path.toString)] else [])

/-- What is told about the input. -/
def openingEvents (r : Request) (image : List Byte) (base : Int) : List Event :=
  if r.verbose then
    [sayErr ("Input file: " ++ r.input.toString ++ " (" ++ toString image.length ++ " bytes)"),
      sayErr ("Base address: $" ++ Numeral.hex 3 base)]
  else []

/-- What is told about the entries. -/
def closingEvents (r : Request) (entries : List Listing.Entry) : List Event :=
  if r.verbose then
    [sayErr ("Words disassembled: " ++ toString entries.length ++ " (" ++
      toString (entries.countP Listing.Entry.isData) ++ " as data)")]
  else []

/-- Lists an image. -/
def list (files : FileTree) (r : Request) (base : Int) (image : List Byte) : Outcome :=
  let loaded := debug r.verbose
    ("Loaded ROM '" ++ r.input.name ++ "' (" ++ toString image.length ++ " bytes)")
  if image = [] then stop loaded none (.badArgument (r.input.toString ++ " is empty"))
  else
    let entries := Listing.disassemble image base r.count
    let events := loaded ++ openingEvents r image base
    match deliver files r (document r image base entries) with
    | .error p => stop events none p
    | .ok more =>
      { events := events ++ more ++ closingEvents r entries, ending := .exit .success }

/-- Lists the program of a request. The address is looked at first. -/
def serve (files : FileTree) (r : Request) : Outcome :=
  match baseAddress r.address with
  | .error p => stop [] none p
  | .ok base =>
    match files.loadProgram r.input with
    | .error e => stop [] none (loadProblem e)
    | .ok image => list files r base image

/-- All that the tool does for a command line. -/
def run (files : FileTree) (arguments : List String) : Outcome :=
  match CommandLine.read switches arguments with
  | .error e => rejected e
  | .ok c =>
    match c.first? [.version, .help] with
    | some .version => informed (versionLine name)
    | some _ => informed (helpText name " INPUT_FILE" switches)
    | none =>
      match request files c with
      | .error e => rejected e
      | .ok r => serve files r

end Chip8.Tool.Lister
