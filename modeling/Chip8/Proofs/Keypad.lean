/-
The keypad as a record of what was done to it. A key is held exactly if, of the
operations on it that succeeded since the keypad was last cleared, the last one
set it down. The keys that are held, the answers about single keys, the grid and
the summary all tell this, each in its own order.
-/
import Chip8.Machine.Step
import Chip8.Proofs.Dump
import Chip8.Proofs.Key
import Mathlib.Data.List.Induction

namespace Chip8

namespace Keypad

variable {p : Keypad} {k : Key} {ref : Key.Reference} {e : Key.Unresolved} {down : Bool}

/-! ## Operations -/

/-- What can be done to a keypad. -/
inductive Operation
  | assign (ref : Key.Reference) (down : Bool)
  | clear
deriving DecidableEq, Repr

/-- Work on a keypad that may be refused halfway. What it has done by then stays done. -/
abbrev Work := ExceptT Key.Unresolved (StateM Keypad)

/-- The work of an operation. -/
def Operation.work : Operation → Work Unit
  | .assign ref down => do
    let k ← MonadExcept.ofExcept (Key.resolve ref)
    modify (·.set k down)
  | .clear => MonadState.set released

/-- Carries out an operation: whether it was refused, and the keypad after it. -/
def act (p : Keypad) (op : Operation) : Except Key.Unresolved Unit × Keypad :=
  (op.work.run.run p).run

/-- The keypad after some operations, refused or not. -/
def after (p : Keypad) : List Operation → Keypad
  | [] => p
  | op :: ops => (p.act op).2.after ops

/-- Which of some operations are refused. -/
def results (p : Keypad) : List Operation → List (Except Key.Unresolved Unit)
  | [] => []
  | op :: ops => (p.act op).1 :: (p.act op).2.results ops

@[simp] theorem act_clear (p : Keypad) : p.act .clear = (.ok (), released) := rfl

theorem act_of_ok (h : Key.resolve ref = .ok k) (p : Keypad) (down : Bool) :
    p.act (.assign ref down) = (.ok (), p.set k down) := by
  rw [act, Operation.work, h]
  rfl

theorem act_of_error (h : Key.resolve ref = .error e) (p : Keypad) (down : Bool) :
    p.act (.assign ref down) = (.error e, p) := by
  rw [act, Operation.work, h]
  rfl

/-- Assigning gives the keypad after it, unless it is refused. -/
theorem assign_eq_act (p : Keypad) (ref : Key.Reference) (down : Bool) :
    p.assign ref down = (p.act (.assign ref down)).1.map fun _ => (p.act (.assign ref down)).2 := by
  cases h : Key.resolve ref with
  | ok k => rw [assign, act_of_ok h, h]; rfl
  | error e => rw [assign, act_of_error h, h]; rfl

theorem after_concat (p : Keypad) (ops : List Operation) (op : Operation) :
    p.after (ops ++ [op]) = ((p.after ops).act op).2 := by
  induction ops generalizing p with
  | nil => rfl
  | cons first ops ih => exact ih _

/-- Only a reference that names no key is refused. -/
theorem act_eq_error_iff {op : Operation} : (p.act op).1 = .error e ↔
    ∃ ref down, op = .assign ref down ∧ Key.resolve ref = .error e := by
  cases op with
  | clear => simp
  | assign ref down =>
    cases h : Key.resolve ref with
    | ok k => simp [act_of_ok h, h]
    | error e' => simp [act_of_error h, h]

theorem act_of_refused {op : Operation} (h : (p.act op).1 = .error e) : (p.act op).2 = p := by
  obtain ⟨ref, down, rfl, hkey⟩ := act_eq_error_iff.1 h
  rw [act_of_error hkey]

/-! ## The last operation on a key -/

/-- The operation sets a key down or up. -/
def Operation.Sets (op : Operation) (k : Key) (down : Bool) : Prop :=
  ∃ ref, op = .assign ref down ∧ Key.resolve ref = .ok k

/-- The operation neither sets a key nor clears the keypad. -/
def Operation.Leaves (op : Operation) (k : Key) : Prop :=
  op ≠ .clear ∧ ∀ down, ¬ op.Sets k down

/-- Of the operations that set a key since the last clearing, the latest sets it down. -/
def SetDownLast (ops : List Operation) (k : Key) : Prop :=
  ∃ before op later, ops = before ++ op :: later ∧ op.Sets k true ∧ ∀ o ∈ later, o.Leaves k

theorem Operation.sets_assign_iff {d : Bool} :
    (Operation.assign ref down).Sets k d ↔ down = d ∧ Key.resolve ref = .ok k := by
  constructor
  · rintro ⟨_, h, hkey⟩
    cases h
    exact ⟨rfl, hkey⟩
  · rintro ⟨rfl, hkey⟩
    exact ⟨ref, rfl, hkey⟩

theorem Operation.not_sets_clear : ¬ Operation.clear.Sets k down := by
  rintro ⟨ref, h, -⟩
  cases h

/-- **One operation.** A key is held after it if the operation sets it down, or
leaves it as it was, held. -/
theorem isHeld_act (p : Keypad) (op : Operation) (k : Key) : (p.act op).2.isHeld k = true ↔
    op.Sets k true ∨ (op.Leaves k ∧ p.isHeld k = true) := by
  cases op with
  | clear =>
    simp [Operation.not_sets_clear, Operation.Leaves]
  | assign ref down =>
    simp only [Operation.Leaves, Operation.sets_assign_iff, ne_eq, reduceCtorEq, not_false_eq_true,
      true_and]
    cases h : Key.resolve ref with
    | error e => simp [act_of_error h]
    | ok l =>
      rw [act_of_ok h, isHeld_set]
      by_cases hlk : l = k <;> simp [hlk]

theorem setDownLast_concat {ops : List Operation} {op : Operation} : SetDownLast (ops ++ [op]) k ↔
    op.Sets k true ∨ (op.Leaves k ∧ SetDownLast ops k) := by
  constructor
  · rintro ⟨before, setter, later, heq, hsets, hleaves⟩
    rcases List.eq_nil_or_concat later with rfl | ⟨later, last, rfl⟩
    · obtain ⟨-, hop⟩ := List.append_inj' heq rfl
      cases hop
      exact .inl hsets
    · rw [List.concat_eq_append] at heq hleaves
      rw [← List.cons_append, ← List.append_assoc] at heq
      obtain ⟨hops, hop⟩ := List.append_inj' heq rfl
      cases hop
      exact .inr ⟨hleaves op (by simp), before, setter, later, hops, hsets, fun o ho =>
        hleaves o (List.mem_append_left _ ho)⟩
  · rintro (hsets | ⟨hlast, before, setter, later, rfl, hsets, hleaves⟩)
    · exact ⟨ops, op, [], rfl, hsets, by simp⟩
    · refine ⟨before, setter, later ++ [op], by simp, hsets, fun o ho => ?_⟩
      rcases List.mem_append.1 ho with ho | ho
      · exact hleaves o ho
      · exact List.mem_singleton.1 ho ▸ hlast

/-- **Many operations.** From the end, the first that does not leave a key decides. -/
theorem isHeld_after (p : Keypad) (ops : List Operation) (k : Key) :
    (p.after ops).isHeld k = true ↔
      SetDownLast ops k ∨ ((∀ op ∈ ops, op.Leaves k) ∧ p.isHeld k = true) := by
  induction ops using List.reverseRecOn with
  | nil =>
    have hnone : ¬ SetDownLast [] k := by
      rintro ⟨before, op, later, h, -⟩
      simp at h
    simp [after, hnone]
  | append_singleton ops op ih =>
    have hall : (∀ o ∈ ops ++ [op], o.Leaves k) ↔ op.Leaves k ∧ ∀ o ∈ ops, o.Leaves k := by
      rw [List.forall_mem_append, List.forall_mem_singleton, and_comm]
    rw [after_concat, isHeld_act, ih, setDownLast_concat, hall]
    tauto

/-! ## The keys that are held -/

theorem pairwise_heldKeys (p : Keypad) : p.heldKeys.Pairwise (· < ·) :=
  List.Pairwise.filter _ (by decide : Key.all.Pairwise (· < ·))

theorem isHeld_eq_decide (p : Keypad) (k : Key) : p.isHeld k = decide (k ∈ p.heldKeys) := by
  rw [Bool.eq_iff_iff, decide_eq_true_iff, mem_heldKeys]

theorem mem_heldKeys_after (ops : List Operation) (k : Key) :
    k ∈ (released.after ops).heldKeys ↔ SetDownLast ops k := by
  simp [mem_heldKeys, isHeld_after]

/-! ## Views of the keypad -/

/-- What stands behind a key on the grid. -/
def mark (p : Keypad) (k : Key) : Char := if k ∈ p.heldKeys then '*' else ' '

theorem toList_cell (p : Keypad) (k : Key) : (p.cell k).toList = [k.digit, p.mark k] := by
  rw [cell, String.toList_append, Key.toList_label, mark]
  by_cases h : k ∈ p.heldKeys
  · rw [if_pos (mem_heldKeys.1 h), if_pos h]
    rfl
  · rw [if_neg (mt mem_heldKeys.2 h), if_neg h]
    rfl

/-- A row of the grid. -/
def gridRow (p : Keypad) (keys : List Key) : List Char :=
  [' '].intercalate (keys.map fun k => [k.digit, p.mark k])

theorem toList_grid (p : Keypad) : p.grid.toList = ['\n'].intercalate (Key.layout.map p.gridRow) := by
  rw [grid, String.toList_intercalate, List.map_map]
  refine congrArg _ (List.map_congr_left fun keys _ => ?_)
  rw [Function.comp_apply, String.toList_intercalate, List.map_map]
  exact congrArg _ (List.map_congr_left fun k _ => p.toList_cell k)

theorem length_of_mem_layout {keys : List Key} (h : keys ∈ Key.layout) : keys.length = 4 := by
  revert keys
  decide

theorem length_gridRow (p : Keypad) {keys : List Key} (h : keys ∈ Key.layout) :
    (p.gridRow keys).length = 11 := by
  have hne : keys.map (fun k => [k.digit, p.mark k]) ≠ [] := by
    rw [← List.length_pos_iff, List.length_map, length_of_mem_layout h]
    decide
  have hrest : (Text.rest [' '] (keys.map fun k => [k.digit, p.mark k])).length = 12 := by
    rw [Text.length_rest_of_width (w := 2) (by simp), List.length_map, length_of_mem_layout h]
    rfl
  rw [Text.rest_of_ne_nil hne, List.length_append, List.length_singleton] at hrest
  rw [gridRow]
  omega

/-- A key lies in a row and a column of the layout. -/
def LiesAt (k : Key) (row column : Nat) : Prop :=
  ∃ keys, Key.layout[row]? = some keys ∧ keys[column]? = some k

/-- A row takes twelve characters with the break behind it, a key three with the blank. -/
theorem getElem?_grid {row column q : Nat} (h : LiesAt k row column) (hq : q < 2) :
    p.grid.toList[12 * row + 3 * column + q]? = [k.digit, p.mark k][q]? := by
  obtain ⟨keys, hrow, hcolumn⟩ := h
  have hlt := (List.getElem?_eq_some_iff.1 hcolumn).1
  rw [length_of_mem_layout (List.mem_of_getElem? hrow)] at hlt
  have hrows : ∀ cs ∈ Key.layout.map p.gridRow, cs.length = 11 :=
    List.forall_mem_map.2 fun _ => p.length_gridRow
  have hline : (Key.layout.map p.gridRow)[row]? = some (p.gridRow keys) := by
    rw [List.getElem?_map, hrow, Option.map_some]
  have hcells : ∀ cs ∈ keys.map fun k => [k.digit, p.mark k], cs.length = 2 := by simp
  have hcell : (keys.map fun k => [k.digit, p.mark k])[column]? = some [k.digit, p.mark k] := by
    rw [List.getElem?_map, hcolumn, Option.map_some]
  rw [toList_grid, Nat.add_assoc]
  exact (Text.getElem?_intercalate hrows hline (by omega)).trans
    (Text.getElem?_intercalate hcells hcell hq)

/-- Every key lies in one place of the layout, in another order than the keys have. -/
theorem perm_layout : Key.layout.flatten.Perm Key.all := by decide

theorem exists_liesAt (k : Key) : ∃ row column, LiesAt k row column := by
  have hmem : k ∈ Key.layout.flatten := by
    revert k
    decide
  obtain ⟨keys, hkeys, hk⟩ := List.mem_flatten.1 hmem
  obtain ⟨row, hrow⟩ := List.mem_iff_getElem?.1 hkeys
  obtain ⟨column, hcolumn⟩ := List.mem_iff_getElem?.1 hk
  exact ⟨row, column, keys, hrow, hcolumn⟩

theorem count_cell (p : Keypad) (k : Key) :
    [k.digit, p.mark k].count '*' = if p.isHeld k then 1 else 0 := by
  have hdigit : ∀ k : Key, k.digit ≠ '*' := by decide
  rw [List.count_cons_of_ne (hdigit k), mark]
  simp only [mem_heldKeys]
  split <;> rfl

theorem count_gridRow (p : Keypad) (keys : List Key) :
    (p.gridRow keys).count '*' = keys.countP p.isHeld := by
  rw [gridRow, Text.count_intercalate (by decide)]
  induction keys with
  | nil => rfl
  | cons k keys ih =>
    rw [List.map_cons, List.flatten_cons, List.count_append, ih, List.countP_cons, count_cell,
      Nat.add_comm]

/-- The grid shows as many stars as keys are held. -/
theorem count_grid (p : Keypad) : p.grid.toList.count '*' = p.heldKeys.length :=
  calc p.grid.toList.count '*'
      = (Key.layout.map fun keys => keys.countP p.isHeld).sum := by
        rw [toList_grid, Text.count_intercalate (by decide), List.count_flatten, List.map_map]
        exact congrArg _ (List.map_congr_left fun keys _ => p.count_gridRow keys)
    _ = Key.layout.flatten.countP p.isHeld := List.countP_flatten.symm
    _ = Key.all.countP p.isHeld := perm_layout.countP_eq _
    _ = p.heldKeys.length := List.countP_eq_length_filter

theorem toList_summary (p : Keypad) : p.summary.toList =
    "Keyboard(pressed='".toList ++ (p.heldKeys.map Key.digit ++ "')".toList) := by
  have hlabels : (String.join (p.heldKeys.map Key.label)).toList = p.heldKeys.map Key.digit := by
    rw [String.toList_join, List.flatMap_map, List.map_eq_flatMap]
    simp only [Key.toList_label]
  unfold summary
  rw [String.toList_append, String.toList_append, hlabels, List.append_assoc]

/-- Between its quotes the summary shows the digits of the keys that are held. -/
theorem read_summary (p : Keypad) : ((p.summary.toList.drop 18).takeWhile (· ≠ '\'')).map
    Numeral.digitValue = p.heldKeys.map BitVec.toNat := by
  have hquote : ∀ c ∈ p.heldKeys.map Key.digit, decide (c ≠ '\'') = true := by
    have hdigit : ∀ k : Key, k.digit ≠ '\'' := by decide
    exact List.forall_mem_map.2 fun k _ => decide_eq_true (hdigit k)
  have hopen : "Keyboard(pressed='".toList.length = 18 := rfl
  have hclose : "')".toList.takeWhile (· ≠ '\'') = [] := rfl
  rw [toList_summary, ← hopen, List.drop_left, List.takeWhile_append_of_pos hquote, hclose,
    List.append_nil, List.map_map]
  exact List.map_congr_left fun k _ => k.digitValue_digit

/-- All that shows which keys are held shows the same keys. -/
structure ShowsHeld (p : Keypad) : Prop where
  /-- Looking at a key answers whether it is held, unless the reference names none. -/
  look : ∀ ref, p.look ref = (Key.resolve ref).map fun k => decide (k ∈ p.heldKeys)
  /-- On the grid a star stands behind a key exactly if it is held. -/
  grid : ∀ k row column, LiesAt k row column →
    p.grid.toList[12 * row + 3 * column]? = some k.digit ∧
      p.grid.toList[12 * row + 3 * column + 1]? = some (if k ∈ p.heldKeys then '*' else ' ')
  /-- Every key is on the grid. -/
  place : ∀ k, ∃ row column, LiesAt k row column
  /-- There are no other stars. -/
  stars : p.grid.toList.count '*' = p.heldKeys.length
  /-- The summary shows the digits of the held keys, in order. -/
  summary : ((p.summary.toList.drop 18).takeWhile (· ≠ '\'')).map Numeral.digitValue =
    p.heldKeys.map BitVec.toNat

theorem showsHeld (p : Keypad) : p.ShowsHeld where
  look ref := by
    rw [Keypad.look]
    exact congrArg (fun f => (Key.resolve ref).map f) (funext p.isHeld_eq_decide)
  grid k row column h := ⟨p.getElem?_grid h (q := 0) (by omega), p.getElem?_grid h (q := 1) (by omega)⟩
  place := exists_liesAt
  stars := p.count_grid
  summary := p.read_summary

/-! ## References to the same key -/

/-- Two operations that differ at most in how they refer to a key. -/
inductive Operation.Alike : Operation → Operation → Prop
  | same (op : Operation) : Alike op op
  | assign {ref ref' : Key.Reference} {k : Key} (h : Key.resolve ref = .ok k)
      (h' : Key.resolve ref' = .ok k) (down : Bool) : Alike (.assign ref down) (.assign ref' down)

theorem act_congr {op op' : Operation} (h : op.Alike op') (p : Keypad) : p.act op = p.act op' := by
  cases h with
  | same => rfl
  | assign h h' down => rw [act_of_ok h, act_of_ok h']

theorem acts_congr {ops ops' : List Operation} (h : List.Forall₂ Operation.Alike ops ops')
    (p : Keypad) : p.results ops = p.results ops' ∧ p.after ops = p.after ops' := by
  induction h generalizing p with
  | nil => exact ⟨rfl, rfl⟩
  | cons hop _ ih =>
    obtain ⟨hresults, hafter⟩ := ih (p.act _).2
    rw [results, results, after, after, ← act_congr hop p, hresults, hafter]
    exact ⟨rfl, rfl⟩

end Keypad

/-- One reference does for the other wherever a key is named. -/
structure Key.Reference.Interchangeable (ref ref' : Key.Reference) : Prop where
  assign : ∀ (p : Keypad) (down : Bool), p.act (.assign ref down) = p.act (.assign ref' down)
  look : ∀ p : Keypad, p.look ref = p.look ref'
  setKey : ∀ (m : Machine) (down : Bool), m.setKey ref down = m.setKey ref' down
  step : ∀ m : Machine, m.step (some ref) = m.step (some ref')
  run : ∀ (m : Machine) (limit : Int), m.run limit (some ref) = m.run limit (some ref')

theorem Run.proceed_congr {press press' : Option Key.Reference}
    (h : ∀ m : Machine, m.step press = m.step press') (limit : Nat) (r : Run) :
    r.proceed press limit = r.proceed press' limit := by
  induction limit generalizing r with
  | zero => rfl
  | succ limit ih =>
    have hadvance : r.advance press = r.advance press' := by rw [advance, advance, h]
    rw [proceed, proceed, hadvance, ih]

theorem Machine.step_congr {ref ref' : Key.Reference} {k : Key} (h : Key.resolve ref = .ok k)
    (h' : Key.resolve ref' = .ok k) (m : Machine) : m.step (some ref) = m.step (some ref') := by
  rw [step, step, resolvePress, resolvePress, h, h']

theorem Key.Reference.interchangeable {ref ref' : Key.Reference} {k : Key}
    (h : Key.resolve ref = .ok k) (h' : Key.resolve ref' = .ok k) : ref.Interchangeable ref' where
  assign p down := by rw [Keypad.act_of_ok h, Keypad.act_of_ok h']
  look p := by rw [Keypad.look, Keypad.look, h, h']
  setKey m down := by rw [Machine.setKey, Machine.setKey, Keypad.assign, Keypad.assign, h, h']
  step := Machine.step_congr h h'
  run m limit := Run.proceed_congr (Machine.step_congr h h') _ _

namespace Keypad

/-- **The keypad is its history.** After any operations on a keypad that starts with no
key held, the keys that are held are, in order, exactly those that the latest operation
on them since the last clearing set down. What is refused is a reference that names no
key, and it changes nothing. References to the same key do for one another. And all that
shows which keys are held shows these. -/
theorem keypad_keepsHistory :
    (∀ ops : List Operation, (released.after ops).heldKeys.Pairwise (· < ·) ∧
      ∀ k, k ∈ (released.after ops).heldKeys ↔ SetDownLast ops k) ∧
    (∀ (p : Keypad) (op : Operation) (e : Key.Unresolved),
      ((p.act op).1 = .error e ↔
        ∃ ref down, op = .assign ref down ∧ Key.resolve ref = .error e) ∧
      ((p.act op).1 = .error e → (p.act op).2 = p)) ∧
    (∀ (p : Keypad) (ref : Key.Reference) (down : Bool), p.assign ref down =
      (p.act (.assign ref down)).1.map fun _ => (p.act (.assign ref down)).2) ∧
    (∀ (p : Keypad) (ops ops' : List Operation), List.Forall₂ Operation.Alike ops ops' →
      p.results ops = p.results ops' ∧ p.after ops = p.after ops') ∧
    (∀ (ref ref' : Key.Reference) (k : Key), Key.resolve ref = .ok k → Key.resolve ref' = .ok k →
      ref.Interchangeable ref') ∧
    ∀ p : Keypad, p.ShowsHeld :=
  ⟨fun ops => ⟨pairwise_heldKeys _, mem_heldKeys_after ops⟩,
    fun _ _ _ => ⟨act_eq_error_iff, act_of_refused⟩, assign_eq_act,
    fun p _ _ h => acts_congr h p, fun _ _ _ => Key.Reference.interchangeable, showsHeld⟩

/-- One key set before the keypad is cleared, three behind that, one of which is let go
again, and a reference to none. -/
def presses : List Operation :=
  [.assign (.text "a") true, .clear, .assign (.number 3) true, .assign (.text " 0xC\n") true,
    .assign (.number true.toInt) true, .assign (.text "g") true, .assign (.text "k3") false]

/-- The same presses, with two of the keys by their values. -/
def respelled : List Operation :=
  [.assign (.number 10) true, .clear, .assign (.number 3) true, .assign (.number 12) true,
    .assign (.number true.toInt) true, .assign (.text "g") true, .assign (.text "k3") false]

theorem presses_keepHistory :
    (∀ k, SetDownLast presses k ↔ k ∈ [1, 0xC]) ∧
    (∀ p : Keypad, (p.act (.assign (.text "g") true)).2 = p) ∧
    released.after presses = released.after respelled ∧
    Key.Reference.Interchangeable (.text " 0xC\n") (.number 12) := by
  have ha : Key.resolve (.text "a") = .ok 0xA := by decide
  have hc : Key.resolve (.text " 0xC\n") = .ok 0xC := by decide
  have hg : Key.resolve (.text "g") = .error (.unknown "g") := by decide
  have hheld : (released.after presses).heldKeys = [1, 0xC] := by decide
  obtain ⟨hhistory, hrefused, -, halike, hsame, -⟩ := keypad_keepsHistory
  refine ⟨fun k => ?_, fun p => (hrefused p _ _).2 (congrArg Prod.fst (act_of_error hg p true)),
    (halike released presses respelled ?_).2, hsame _ _ 0xC hc rfl⟩
  · rw [← hheld]
    exact ((hhistory presses).2 k).symm
  · exact .cons (.assign ha rfl true) (.cons (.same _) (.cons (.same _) (.cons (.assign hc rfl true)
      (.cons (.same _) (.cons (.same _) (.cons (.same _) .nil))))))

end Keypad
end Chip8
