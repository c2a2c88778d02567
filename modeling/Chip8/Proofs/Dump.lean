/-
Dumps read back. Registers, index, keypad and timers are written with as many
characters in every dump, so they are told apart by where they stand. Behind
them the program counter ends at the end of its line, the depth of the stack at
a bracket; and the depth tells how long the lines of the slots are, of which the
dead ones show nothing.
-/
import Chip8.Machine.Dump
import Chip8.Proofs.Assembly
import Chip8.Proofs.Text

namespace Chip8

/-! ## Numbers -/

namespace Machine

@[simp] theorem length_byteText (b : Byte) : (byteText b).length = 4 := by
  rw [byteText, String.length_append, Numeral.length_hex (by omega) b.isLt]
  rfl

@[simp] theorem length_wordText (w : Word) : (wordText w).length = 6 := by
  rw [wordText, String.length_append, Numeral.length_hex (by omega) w.isLt]
  rfl

theorem byteText_injective {a b : Byte} (h : byteText a = byteText b) : a = b := by
  rw [byteText, byteText, String.append_right_inj] at h
  have hvalue := Numeral.hex_injective h
  exact BitVec.eq_of_toNat_eq (by omega)

theorem wordText_injective {v w : Word} (h : wordText v = wordText w) : v = w := by
  rw [wordText, wordText, String.append_right_inj] at h
  have hvalue := Numeral.hex_injective h
  exact BitVec.eq_of_toNat_eq (by omega)

end Machine

/-! ## Registers, slots and keys -/

/-- The live return addresses are what the slots show, as far as the stack is deep. -/
theorem CallStack.live_eq_of_shown {s t : CallStack} (hdepth : s.depth = t.depth)
    (h : ∀ k < 16, s.shown k = t.shown k) : s.live = t.live := by
  have hle := s.depth_le
  apply List.ext_getElem
  · rw [length_live, length_live, hdepth]
  · intro k hk hk'
    have hslot := h k (by rw [length_live] at hk; omega)
    rwa [shown, shown, List.getElem?_eq_getElem hk, List.getElem?_eq_getElem hk',
      Option.getD_some, Option.getD_some] at hslot

theorem RegisterFile.eq_of_read {f g : RegisterFile} (h : ∀ r, f.read r = g.read r) : f = g := by
  refine congrArg RegisterFile.mk (Vector.ext fun k hk => ?_)
  have hread := h (BitVec.ofNat 4 k)
  simpa [read, Nat.mod_eq_of_lt hk] using hread

theorem Keypad.eq_of_isHeld {p q : Keypad} (h : ∀ k, p.isHeld k = q.isHeld k) : p = q := by
  refine congrArg Keypad.mk (Vector.ext fun k hk => ?_)
  have hheld := h (BitVec.ofNat 4 k)
  simpa [isHeld, Nat.mod_eq_of_lt hk] using hheld

namespace Keypad

@[simp] theorem length_cell (p : Keypad) (k : Key) : (p.cell k).length = 2 := by
  rw [cell, String.length_append, Key.label, Numeral.length_hex (by omega) k.isLt]
  split <;> rfl

theorem isHeld_of_cell {p q : Keypad} {k : Key} (h : p.cell k = q.cell k) :
    p.isHeld k = q.isHeld k := by
  rw [cell, cell, String.append_right_inj] at h
  cases hp : p.isHeld k <;> cases hq : q.isHeld k <;> simp [hp, hq] at h ⊢

theorem length_grid (p q : Keypad) : p.grid.length = q.grid.length :=
  Text.length_intercalate_map fun _ => Text.length_intercalate_map fun k => by simp

/-- Every key lies somewhere on the keypad, so the grid tells all that are held. -/
theorem grid_injective {p q : Keypad} (h : p.grid = q.grid) : p = q := by
  have hlayout : ∀ k : Key, ∃ row ∈ Key.layout, k ∈ row := by decide
  apply eq_of_isHeld
  intro k
  obtain ⟨row, hrow, hk⟩ := hlayout k
  have hline := Text.eq_of_intercalate_map
    (fun _ => Text.length_intercalate_map fun k => by simp) h row hrow
  exact isHeld_of_cell (Text.eq_of_intercalate_map (fun k => by simp) hline k hk)

end Keypad

namespace Machine

variable {m n : Machine}

theorem length_registerLine (m n : Machine) (first : Nat) :
    (m.registerLine first).length = (n.registerLine first).length :=
  Text.length_intercalate_map fun k => by simp [String.length_append]

theorem registers_of_registerLine
    (h : ∀ first ∈ [0, 4, 8, 12], m.registerLine first = n.registerLine first) :
    m.registers = n.registers := by
  apply RegisterFile.eq_of_read
  intro r
  have hrow : 4 * (r.toNat / 4) ∈ [0, 4, 8, 12] := by
    revert r
    decide
  have hmem : r.toNat ∈ List.range' (4 * (r.toNat / 4)) 4 := by
    rw [List.mem_range'_1]
    omega
  have hcell := Text.eq_of_intercalate_map (fun k => by simp [String.length_append])
    (h _ hrow) r.toNat hmem
  simp only [String.append_right_inj, BitVec.ofNat_toNat, BitVec.setWidth_eq] at hcell
  exact byteText_injective hcell

/-! ## The parts of a dump -/

/-- The lines above the program counter. -/
def upperLines (m : Machine) : List String :=
  "REGS:" :: [0, 4, 8, 12].map m.registerLine ++
    [" I = " ++ wordText (m.index.setWidth 16), "",
      "KEYPAD:", m.keypad.grid, "",
      "TIMERS:", "DT = " ++ byteText m.timers.delay, "ST = " ++ byteText m.timers.sound, "",
      "PC:"]

/-- The lines of the stack, the last slot first. -/
def slotLines (m : Machine) : List String := (List.range 16).reverse.map m.slotLine

theorem dumpLines_eq (m : Machine) (last : Option Instruction) : m.dumpLines last =
    m.upperLines ++ (m.counterLine last :: "" ::
      ("STACK (SP = " ++ toString m.stack.depth ++ "):") :: m.slotLines) := rfl

/-- A text as it stands below another line. -/
theorem newline_dump (m : Machine) (last : Option Instruction) :
    '\n' :: (m.dump last).toList = Text.rest ['\n'] (m.upperLines.map String.toList) ++
      ('\n' :: ((m.counterLine last).toList ++
        ("\n\nSTACK (SP = ".toList ++ ((toString m.stack.depth).toList ++
          ("):".toList ++ Text.rest ['\n'] (m.slotLines.map String.toList)))))) := by
  have hlines : '\n' :: (m.dump last).toList =
      Text.rest ['\n'] ((m.dumpLines last).map String.toList) := by
    rw [dump, String.toList_intercalate]
    rfl
  rw [hlines, dumpLines_eq, List.map_append, Text.rest_append, List.map_cons, List.map_cons,
    List.map_cons, Text.rest_cons, Text.rest_cons, Text.rest_cons, String.toList_append,
    String.toList_append]
  simp

theorem length_upperLines (m n : Machine) :
    (m.upperLines.map String.toList).map List.length =
      (n.upperLines.map String.toList).map List.length := by
  simp [upperLines, String.length_toList, length_registerLine m n,
    Keypad.length_grid m.keypad n.keypad]

theorem newline_not_mem_counterLine (m : Machine) (last : Option Instruction) :
    '\n' ∉ (m.counterLine last).toList := by
  have hdigit : ¬ Numeral.IsDigit '\n' := by
    unfold Numeral.IsDigit
    decide
  have hword : '\n' ∉ (wordText m.pc).toList := by
    rw [wordText, String.toList_append, List.mem_append, not_or]
    exact ⟨by decide, Numeral.not_mem_hex hdigit (by decide) 4 _⟩
  unfold counterLine
  rw [String.toList_append, List.mem_append, not_or]
  refine ⟨hword, ?_⟩
  cases last with
  | none => exact List.not_mem_nil
  | some i =>
    rw [String.toList_append, List.mem_append, not_or]
    exact ⟨by decide, i.not_mem_assembly (by decide) hdigit (by decide)⟩

/-- The slots of stacks of the same depth are marked alike. -/
theorem length_slotLines (h : m.stack.depth = n.stack.depth) :
    (m.slotLines.map String.toList).map List.length =
      (n.slotLines.map String.toList).map List.length := by
  simp [slotLines, slotLine, String.length_toList, h]

/-- The parts of a dump are told apart. -/
theorem parts_of_dump {last last' : Option Instruction} (h : m.dump last = n.dump last') :
    m.upperLines = n.upperLines ∧ m.counterLine last = n.counterLine last' ∧
      m.stack.depth = n.stack.depth ∧ m.slotLines = n.slotLines := by
  have hlist := congrArg (fun s => '\n' :: s.toList) h
  simp only [newline_dump] at hlist
  obtain ⟨hupper, hlist⟩ := Text.rest_append_inj (length_upperLines m n) hlist
  obtain ⟨hcounter, hlist⟩ := Text.append_inj_of_not_mem (m.newline_not_mem_counterLine last)
    (n.newline_not_mem_counterLine last') (.inr rfl) (.inr rfl) (List.cons.inj hlist).2
  obtain ⟨hdepth, hlist⟩ := Text.append_inj_of_not_mem (c := ')')
    (Numeral.not_mem_toString (by decide) _) (Numeral.not_mem_toString (by decide) _) (.inr rfl)
    (.inr rfl) (List.append_cancel_left hlist)
  have hdepth := Numeral.toString_injective (String.toList_inj.1 hdepth)
  have hslots := Text.rest_append_inj (u := []) (v := []) (length_slotLines hdepth)
    (by simpa using hlist)
  have hinj : Function.Injective (List.map String.toList) :=
    List.map_injective_iff.2 fun _ _ => String.toList_inj.1
  exact ⟨hinj hupper, String.toList_inj.1 hcounter, hdepth, hinj hslots.1⟩

/-! ## What a dump tells -/

theorem counterLine_injective {last last' : Option Instruction}
    (h : m.counterLine last = n.counterLine last') : m.pc = n.pc ∧ last = last' := by
  have hlist := congrArg String.toList h
  unfold counterLine at hlist
  rw [String.toList_append, String.toList_append] at hlist
  obtain ⟨hpc, hlast⟩ := List.append_inj hlist (by simp [String.length_toList])
  refine ⟨wordText_injective (String.toList_inj.1 hpc), ?_⟩
  cases last <;> cases last'
  case none.none => rfl
  case none.some | some.none => simp at hlast
  case some.some i j =>
    have htext := String.toList_inj.1 hlast
    rw [String.append_right_inj] at htext
    rw [Instruction.assembly_injective htext]

theorem shown_of_slotLine {slot : Nat} (hdepth : m.stack.depth = n.stack.depth)
    (h : m.slotLine slot = n.slotLine slot) : m.stack.shown slot = n.stack.shown slot := by
  rw [slotLine, slotLine, hdepth, String.append_left_inj, String.append_right_inj] at h
  exact wordText_injective h

/-- Two machines of which a dump shows the same. -/
structure ShowsAlike (m n : Machine) : Prop where
  registers : m.registers = n.registers
  index : m.index = n.index
  keypad : m.keypad = n.keypad
  delay : m.timers.delay = n.timers.delay
  sound : m.timers.sound = n.timers.sound
  pc : m.pc = n.pc
  depth : m.stack.depth = n.stack.depth
  live : m.stack.live = n.stack.live

theorem showsAlike_of_dump {last last' : Option Instruction} (h : m.dump last = n.dump last') :
    m.ShowsAlike n ∧ last = last' := by
  obtain ⟨hupper, hcounter, hdepth, hslots⟩ := parts_of_dump h
  obtain ⟨hpc, hlast⟩ := counterLine_injective hcounter
  simp only [upperLines, List.map_cons, List.map_nil, List.cons_append, List.nil_append,
    List.cons.injEq, String.append_right_inj, true_and, and_true] at hupper
  obtain ⟨hfirst, hsecond, hthird, hfourth, hindex, hgrid, hdelay, hsound⟩ := hupper
  have hslot := List.map_inj_left.1 hslots
  refine ⟨{ registers := ?_, index := ?_, keypad := Keypad.grid_injective hgrid
            delay := byteText_injective hdelay, sound := byteText_injective hsound, pc := hpc
            depth := hdepth, live := ?_ }, hlast⟩
  · apply registers_of_registerLine
    simp only [List.forall_mem_cons]
    exact ⟨hfirst, hsecond, hthird, hfourth, by simp⟩
  · have hnat := congrArg BitVec.toNat (wordText_injective hindex)
    rw [BitVec.toNat_setWidth_of_le (by omega), BitVec.toNat_setWidth_of_le (by omega)] at hnat
    exact BitVec.eq_of_toNat_eq hnat
  · apply CallStack.live_eq_of_shown hdepth
    intro k hk
    exact shown_of_slotLine hdepth (hslot k (by simpa using hk))

theorem dump_congr (h : m.ShowsAlike n) (last : Option Instruction) :
    m.dump last = n.dump last := by
  have hregister : ∀ x, m.register x = n.register x := fun x => by rw [register, register, h.registers]
  have hline : m.registerLine = n.registerLine := by
    funext first
    simp only [registerLine, hregister]
  have hslot : m.slotLine = n.slotLine := by
    funext slot
    simp only [slotLine, CallStack.shown, h.live, h.depth]
  have hcounter : m.counterLine last = n.counterLine last := by
    simp only [counterLine, h.pc]
  simp only [dump, dumpLines, hline, hslot, hcounter, h.index, h.keypad, h.delay, h.sound, h.depth]

/-- **A dump is faithful.** It tells the registers, the index, the keys that are
held, both timers, the program counter and the live return addresses, and the
instruction it was given; and it shows nothing else of a machine, such as what
dead slots hold. -/
theorem dump_isFaithful (m n : Machine) (last last' : Option Instruction) :
    m.dump last = n.dump last' ↔ m.ShowsAlike n ∧ last = last' := by
  constructor
  · intro h
    exact showsAlike_of_dump h
  · rintro ⟨h, rfl⟩
    exact dump_congr h last

end Machine

end Chip8
