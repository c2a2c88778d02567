/-
Dialects: the interpreters of old disagree on three points, and a program runs
under the readings it was written for.

The two presets are the first interpreter, of the COSMAC VIP, and the later
ones that most programs since were written for.
-/
import Chip8.Text.Blank
import Chip8.Text.LetterCase

namespace Chip8

/-- The readings that a machine follows. -/
structure Dialect where
  /-- Bitwise operations clear the flag register. -/
  logicClearsFlag : Bool := false
  /-- Storing and loading a block of registers moves the index behind it. -/
  blocksMoveIndex : Bool := false
  /-- Shifts work on the register itself and ignore the second one. -/
  shiftsInPlace : Bool := false
deriving DecidableEq, Repr

namespace Dialect

/-- The readings by name, with whether they are in force. -/
def flags (d : Dialect) : List (String × Bool) :=
  [("vf_reset", d.logicClearsFlag), ("memory", d.blocksMoveIndex), ("shifting", d.shiftsInPlace)]

/-- The readings in force, or `none`. -/
def describe (d : Dialect) : String :=
  match (d.flags.filter Prod.snd).map Prod.fst with
  | [] => "none"
  | names => String.intercalate ", " names

/-! ## Presets -/

/-- The interpreter of the COSMAC VIP. -/
def cosmacVip : Dialect := { logicClearsFlag := true, blocksMoveIndex := true }

/-- The interpreters in the line of CHIP-48. -/
def modern : Dialect := { shiftsInPlace := true }

/-- The dialect of a machine that is given none. -/
def standard : Dialect := cosmacVip

/-- The presets by their own names, in alphabetical order. -/
def presets : List (String × Dialect) := [("cosmac_vip", cosmacVip), ("modern", modern)]

/-- Every name of a preset, in upper case. -/
def names : List (String × Dialect) :=
  [("COSMAC_VIP", cosmacVip), ("MODERN", modern),
    ("VIP", cosmacVip), ("COSMAC", cosmacVip), ("CHIP8", cosmacVip), ("CHIP_8", cosmacVip),
    ("SCHIP", modern), ("SUPERCHIP", modern), ("CHIP48", modern), ("CHIP_48", modern),
    ("DEFAULT", standard), ("", standard)]

/-- A name that no preset has. -/
structure Unknown where
  name : String
deriving DecidableEq, Repr

/-- The wording of an unknown name. -/
def Unknown.message (u : Unknown) : String :=
  "Unknown quirks preset '" ++ u.name ++ "'. Available: " ++
    String.intercalate ", " (presets.map Prod.fst)

/-- A name in the form in which names are compared: in upper case, without
blanks around it, hyphens as underscores. -/
def canonical (name : String) : String :=
  String.ofList ((Text.strip (Text.upper name.toList)).map fun c => if c = '-' then '_' else c)

/-- The preset of a name. -/
def named (name : String) : Except Unknown Dialect :=
  match names.lookup (canonical name) with
  | some d => .ok d
  | none => .error ⟨name⟩

end Dialect

end Chip8
