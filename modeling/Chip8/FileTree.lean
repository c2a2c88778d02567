/-
Files and directories, and paths to them.

A path starts at the root or at the working directory and is followed part by
part: `.` and empty parts stay, `..` goes up, and every part but the last has
to be a directory.
-/
import Chip8.Memory
import Chip8.Picture
import Chip8.Text.Quoted

namespace Chip8

/-- What is written to a file. -/
inductive Document
  | text (text : String)
  | picture (picture : Picture)
deriving DecidableEq, Repr

/-! ## Paths -/

/-- A path without empty and `.` parts: the slashes it starts with, and its parts. -/
structure Path where
  root : String := ""
  parts : List String
deriving DecidableEq, Repr

namespace Path

/-- The root of a path: two slashes at its start are kept, and any other
number of them counts as one. -/
def rootOf (cs : List Char) : String :=
  match (cs.takeWhile (· = '/')).length with
  | 0 => ""
  | 2 => "//"
  | _ => "/"

/-- The path that a text spells. -/
def ofString (text : String) : Path :=
  { root := rootOf text.toList
    parts :=
      ((text.toList.splitOn '/').filter fun part => part ≠ [] ∧ part ≠ ['.']).map String.ofList }

/-- The shortest spelling of a path. -/
def toString (p : Path) : String :=
  if p.root = "" ∧ p.parts = [] then "." else p.root ++ String.intercalate "/" p.parts

/-- The last part of a path. -/
def name (p : Path) : String := p.parts.getLast?.getD ""

/-- Whether a path starts at the root. -/
def isAbsolute (p : Path) : Bool := p.root ≠ ""

end Path

/-! ## Trees -/

/-- A place in a tree: the names on the way from the root. -/
abbrev Place := List String

/-- What stands at a place. -/
inductive FileNode
  | file (data : List Byte)
  | directory
deriving DecidableEq, Repr

/-- The files and directories, and the directory that paths start at. -/
structure FileTree where
  workingDirectory : Place := []
  nodes : List (Place × FileNode) := []
deriving DecidableEq, Repr

/-- Why a file cannot be used. -/
inductive FileError
  | notFound
  | notDirectory
  | isDirectory
  | nameTooLong
deriving DecidableEq, Repr

namespace FileError

/-- The number of an error. -/
def number : FileError → Nat
  | notFound => 2
  | notDirectory => 20
  | isDirectory => 21
  | nameTooLong => 36

/-- The wording of an error. -/
def description : FileError → String
  | notFound => "No such file or directory"
  | notDirectory => "Not a directory"
  | isDirectory => "Is a directory"
  | nameTooLong => "File name too long"

/-- The text of an error with the path that it is about. -/
def message (e : FileError) (path : Path) : String :=
  "[Errno " ++ Numeral.decimal e.number ++ "] " ++ e.description ++ ": " ++
    Text.Quoted.encode path.toString

end FileError

namespace FileTree

/-- The longest name of a file, in bytes. -/
def nameLimit : Nat := 255

/-- The longest text of a path, in bytes. -/
def pathLimit : Nat := 4095

/-- What stands at a place. A place on the way to something is a directory,
and so is one on the way to the working directory. -/
def node? (t : FileTree) (place : Place) : Option FileNode :=
  match t.nodes.lookup place with
  | some n => some n
  | none =>
    if place.isPrefixOf t.workingDirectory ∨ t.nodes.any (fun (p, _) => place.isPrefixOf p) then
      some .directory
    else none

/-- The place that parts lead to from a directory. The last part need not
stand for anything; the root is above itself. -/
def follow (t : FileTree) (here : Place) : List String → Except FileError Place
  | [] => .ok here
  | part :: rest =>
    match t.node? here with
    | some .directory =>
      if part = ".." then follow t here.dropLast rest
      else if nameLimit < part.utf8ByteSize then .error .nameTooLong
      else follow t (here ++ [part]) rest
    | some (.file _) => .error .notDirectory
    | none => .error .notFound

/-- Whether a text can be followed as a path at all: nothing has a null
character in its name, and a text must not be too long. -/
def checkText (text : String) : Except FileError Unit :=
  if '\x00' ∈ text.toList then .error .notFound
  else if pathLimit < text.utf8ByteSize then .error .nameTooLong
  else .ok ()

/-- The place that a path leads to. -/
def resolve (t : FileTree) (p : Path) : Except FileError Place := do
  checkText p.toString
  t.follow (if p.isAbsolute then [] else t.workingDirectory) p.parts

/-- What stands at the end of a path. -/
def look (t : FileTree) (p : Path) : Except FileError FileNode :=
  match t.resolve p with
  | .error e => .error e
  | .ok place =>
    match t.node? place with
    | some n => .ok n
    | none => .error .notFound

/-- What stands at the end of a path as it is spelled: an empty text leads
nowhere, and one whose last part is empty or `.` only to a directory. -/
def lookSpelled (t : FileTree) (text : String) : Except FileError FileNode :=
  if text = "" then .error .notFound
  else do
    checkText text
    match ← t.look (.ofString text) with
    | .file data =>
      let last := (text.toList.splitOn '/').getLast?
      if last = some [] ∨ last = some ['.'] then .error .notDirectory else .ok (.file data)
    | .directory => .ok .directory

/-- The bytes of a file. -/
def read (t : FileTree) (p : Path) : Except FileError (List Byte) :=
  match t.look p with
  | .ok (.file data) => .ok data
  | .ok .directory => .error .isDirectory
  | .error e => .error e

/-- The place of a file that can be written. -/
def target (t : FileTree) (p : Path) : Except FileError Place :=
  match t.resolve p with
  | .error e => .error e
  | .ok place => if t.node? place = some .directory then .error .isDirectory else .ok place

/-! ## Programs -/

/-- Why no program can be read. -/
inductive LoadError
  | missing (path : Path)
  | unreadable (error : FileError) (path : Path)
  | refused (f : Fault)
deriving DecidableEq, Repr

/-- The wording of a failure to read a program. -/
def LoadError.message : LoadError → String
  | .missing path => "ROM file not found: " ++ path.toString
  | .unreadable error path => error.message path
  | .refused f => f.message

/-- The program in a file, unless it is too long. -/
def loadProgram (t : FileTree) (p : Path) : Except LoadError (List Byte) :=
  match t.read p with
  | .ok data =>
    if Memory.programLimit < data.length then
      .error (.refused { cause := .programTooLarge data.length Memory.programLimit })
    else .ok data
  | .error .notFound | .error .notDirectory => .error (.missing p)
  | .error e => .error (.unreadable e p)

end FileTree

end Chip8
