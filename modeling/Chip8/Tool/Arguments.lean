/-
Command lines: options with or without values, and the arguments between them.

An option's long name takes its value behind `=` or from the next word; short
names follow one hyphen together, and the value of the last takes the rest of
the word or the next one. A value may start with a hyphen. After `--` there
are no options, and a single hyphen is an argument.
-/
import Chip8.FileTree
import Chip8.Text.IntegerLiteral

namespace Chip8.Tool

/-- An option: the names it has, with their hyphens, and whether it has a value. -/
structure Switch (ι : Type) where
  id : ι
  names : List String
  takesValue : Bool := false

/-- A command line that cannot be used. -/
inductive UsageError
  | unknownOption (name : String)
  | missingValue
  | unexpectedValue (name : String)
  | badValue (text : String)
  | missingArgument
  | unexpectedArgument (text : String)
  | badFile (text : String)
  | nullInPath (text : String)
deriving DecidableEq, Repr

/-- An option on a command line, with its value if it has one. -/
structure Given (ι : Type) where
  id : ι
  value : Option String := none

/-- The options and the arguments of a command line, each in order. -/
structure CommandLine (ι : Type) where
  options : List (Given ι) := []
  arguments : List String := []

namespace CommandLine

variable {ι : Type}

/-- The option of a short name. -/
def short? (switches : List (Switch ι)) (c : Char) : Option (Switch ι) :=
  switches.find? fun s => s.names.contains (String.ofList ['-', c])

/-- The option of a long name. -/
def long? (switches : List (Switch ι)) (name : List Char) : Option (Switch ι) :=
  if name.length ≤ 2 then none
  else switches.find? fun s => s.names.contains (String.ofList name)

/-- Options in one word, and the one among them that waits for the next word
as its value, if one does. -/
abbrev Word (ι : Type) := List (Given ι) × Option ι

/-- Short names together. -/
def cluster (switches : List (Switch ι)) : List Char → Except UsageError (Word ι)
  | [] => .ok ([], none)
  | c :: rest =>
    match short? switches c with
    | none => .error (.unknownOption (String.ofList ['-', c]))
    | some s =>
      if s.takesValue then
        if rest = [] then .ok ([], some s.id) else .ok ([⟨s.id, some (String.ofList rest)⟩], none)
      else (cluster switches rest).map fun (options, waiting) => (⟨s.id, none⟩ :: options, waiting)

/-- The part of a word behind its first `=`, if it has one. -/
def attached? (word : List Char) : Option String :=
  match word.dropWhile (· ≠ '=') with
  | [] => none
  | _ :: value => some (String.ofList value)

/-- A word that starts with a hyphen. -/
def word (switches : List (Switch ι)) (cs : List Char) : Except UsageError (Word ι) :=
  let name := cs.takeWhile (· ≠ '=')
  match long? switches name with
  | some s =>
    match s.takesValue, attached? cs with
    | true, some value => .ok ([⟨s.id, some value⟩], none)
    | true, none => .ok ([], some s.id)
    | false, some _ => .error (.unexpectedValue (String.ofList name))
    | false, none => .ok ([⟨s.id, none⟩], none)
  | none =>
    match cs with
    | '-' :: '-' :: _ => .error (.unknownOption (String.ofList name))
    | _ => cluster switches cs.tail

/-- Whether a word is read as an option. -/
def isOption (w : String) : Bool :=
  match w.toList with
  | '-' :: _ :: _ => true
  | _ => false

/-- A command line with more options in front. -/
def withOptions (options : List (Given ι)) (c : CommandLine ι) : CommandLine ι :=
  { c with options := options ++ c.options }

/-- Takes a command line apart. -/
def read (switches : List (Switch ι)) : List String → Except UsageError (CommandLine ι)
  | [] => .ok {}
  | w :: rest =>
    if w = "--" then .ok { arguments := rest }
    else if isOption w then
      match word switches w.toList with
      | .error e => .error e
      | .ok (options, none) => (read switches rest).map (withOptions options)
      | .ok (options, some id) =>
        match rest with
        | [] => .error .missingValue
        | value :: rest => (read switches rest).map (withOptions (options ++ [⟨id, some value⟩]))
    else (read switches rest).map fun c => { c with arguments := w :: c.arguments }

variable [DecidableEq ι]

/-- Whether an option is there. -/
def has (c : CommandLine ι) (id : ι) : Bool := c.options.any fun g => g.id = id

/-- The values of an option, in order. -/
def values (c : CommandLine ι) (id : ι) : List String :=
  (c.options.filter fun g => g.id = id).filterMap Given.value

/-- The value of an option; the last one counts. -/
def value? (c : CommandLine ι) (id : ι) : Option String := (c.values id).getLast?

/-- The options that are there, in the order in which they first are. -/
def occurring (c : CommandLine ι) : List ι := (c.options.map Given.id).eraseDups

/-- What the options come to, each taken up once, in the order in which they
first are there. The first that cannot be used decides. -/
def collect {σ : Type} (c : CommandLine ι) (start : σ) (take : σ → ι → Except UsageError σ) :
    Except UsageError σ :=
  c.occurring.foldlM take start

/-- The first of some options that is there. -/
def first? (c : CommandLine ι) (ids : List ι) : Option ι :=
  (c.options.map Given.id).find? fun id => ids.contains id

/-- The last of some options that is there. -/
def last? (c : CommandLine ι) (ids : List ι) : Option ι :=
  ((c.options.map Given.id).filter fun id => ids.contains id).getLast?

end CommandLine

/-- What a tool tells about its command line. -/
def helpText {ι : Type} (tool argument : String) (switches : List (Switch ι)) : String :=
  String.intercalate "\n"
    (("Usage: " ++ tool ++ " [OPTIONS]" ++ argument) :: "" :: "Options:" ::
      switches.map fun s =>
        "  " ++ String.intercalate ", " s.names ++ if s.takesValue then " VALUE" else "")

/-! ## Values -/

/-- The integer that a value stands for. -/
def integer (text : String) : Except UsageError Int :=
  match Text.IntegerLiteral.parse? .decimal text with
  | some n => .ok n
  | none => .error (.badValue text)

/-- The integer that a value stands for, if it is not too small. -/
def integerFrom (least : Int) (text : String) : Except UsageError Int := do
  let n ← integer text
  if n < least then .error (.badValue text) else .ok n

/-- A value that is one of some words. -/
def choice (words : List String) (text : String) : Except UsageError String :=
  if words.contains text then .ok text else .error (.badValue text)

/-- What stands where a text leads. -/
def lookAt (files : FileTree) (text : String) : Except UsageError (Except FileError FileNode) :=
  if '\x00' ∈ text.toList then .error (.nullInPath text) else .ok (files.lookSpelled text)

/-- The path of a file that has to be there. -/
def existingFile (files : FileTree) (text : String) : Except UsageError Path := do
  match ← lookAt files text with
  | .ok (.file _) => .ok (.ofString text)
  | _ => .error (.badFile text)

/-- The path of a file to write, which must not be a directory. -/
def outputFile (files : FileTree) (text : String) : Except UsageError Path := do
  match ← lookAt files text with
  | .ok .directory => .error (.badFile text)
  | _ => .ok (.ofString text)

/-- A value that may be absent. -/
def optional {α : Type} (f : String → Except UsageError α) : Option String → Except UsageError (Option α)
  | none => .ok none
  | some text => (f text).map some

/-- The texts on a command line that may be paths: its arguments, and the
values of some options. -/
def mentioned {ι : Type} [DecidableEq ι] (switches : List (Switch ι)) (ids : List ι)
    (arguments : List String) : List String :=
  match CommandLine.read switches arguments with
  | .error _ => []
  | .ok c => c.arguments ++ ids.flatMap c.values

/-- A command line without arguments. -/
def noArguments : List String → Except UsageError Unit
  | [] => .ok ()
  | extra :: _ => .error (.unexpectedArgument extra)

/-- The file that is the only argument of a command line. -/
def onlyFile (files : FileTree) : List String → Except UsageError Path
  | [] => .error .missingArgument
  | text :: extra => do
    let path ← existingFile files text
    noArguments extra
    return path

end Chip8.Tool
