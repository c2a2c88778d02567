/-
Control sequences, by which a text sets the colours of a terminal or moves its
cursor: an escape character and `[`, parameters out of digits, `;` and `?`, and
an ASCII letter.

No escape character stands within a sequence, so it is enough to look behind
each one. What a removed sequence stood between is not read again.
-/
namespace Chip8.Text.ControlSequence

/-- The character that every control sequence starts with. -/
def escape : Char := '\x1b'

/-- Whether a character may be a parameter. -/
def isParameter (c : Char) : Bool := c.isDigit || c == ';' || c == '?'

/-- What is left of the characters behind an escape character once the control
sequence is removed; none if they do not make one. -/
def rest? : List Char → Option (List Char)
  | '[' :: cs =>
    match cs.dropWhile isParameter with
    | c :: rest => if c.isAlpha then some rest else none
    | [] => none
  | _ => none

/-- A text without its control sequences. -/
def remove (cs : List Char) : List Char :=
  match cs.splitOn escape with
  | [] => []
  | part :: parts => part ++ parts.flatMap fun behind => (rest? behind).getD (escape :: behind)

/-- A text without an escape character stays as it is. -/
theorem remove_of_not_mem {cs : List Char} (h : escape ∉ cs) : remove cs = cs := by
  simp [remove, List.splitOn_eq_singleton h]

end Chip8.Text.ControlSequence
