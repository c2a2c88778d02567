/-
Subroutines. Seen through its live return addresses the call stack is a list of
at most sixteen: a call that succeeds adds the address behind it at the end, a
return takes the last one off and goes there, and nothing else touches it. So
the step that brings the depth back to where a call was made is a return, and
it goes behind that call.

What a slot holds beyond the live ones is never seen again (`SameLive`).
-/
import Chip8.Except
import Chip8.Proofs.Dump
import Chip8.Proofs.Step
import Chip8.Proofs.Steps

namespace Chip8

namespace CallStack

/-! ## Stacks alike in their live slots -/

/-- Live return addresses agree exactly if the depths and the slots below do. -/
theorem live_eq_iff {s t : CallStack} : s.live = t.live ↔
    s.depth = t.depth ∧ ∀ k (hk : k < 16), k < t.depth → s.slots[k] = t.slots[k] := by
  have hs := s.depth_le
  have ht := t.depth_le
  constructor
  · intro h
    have hd : s.depth = t.depth := by simpa using congrArg List.length h
    refine ⟨hd, fun k hk hkt => ?_⟩
    have := congrArg (fun l => l[k]?) h
    simpa [live, List.getElem?_take, hkt, hd, hk] using this
  · rintro ⟨hd, h⟩
    apply List.ext_getElem?
    intro k
    by_cases hk : k < t.depth
    · have := h k (by omega) hk
      simp [live, hk, hd, show k < 16 by omega, this]
    · simp only [live, List.getElem?_take, hd, if_neg hk]

theorem push?_congr {s t : CallStack} (h : s.live = t.live) (a : Word) :
    (s.push? a = none ∧ t.push? a = none) ∨
      ∃ s' t', s.push? a = some s' ∧ t.push? a = some t' ∧ s'.live = t'.live := by
  have hd : s.depth = t.depth := (live_eq_iff.1 h).1
  cases hs : s.push? a with
  | none => exact .inl ⟨rfl, push?_eq_none_iff.2 (hd ▸ push?_eq_none_iff.1 hs)⟩
  | some s' =>
    cases ht : t.push? a with
    | none =>
      rw [push?_eq_none_iff.2 (hd ▸ push?_eq_none_iff.1 ht)] at hs
      cases hs
    | some t' => exact .inr ⟨s', t', rfl, rfl, by rw [live_of_push? hs, live_of_push? ht, h]⟩

theorem pop?_congr {s t : CallStack} (h : s.live = t.live) :
    (s.pop? = none ∧ t.pop? = none) ∨
      ∃ a s' t', s.pop? = some (a, s') ∧ t.pop? = some (a, t') ∧ s'.live = t'.live := by
  have hd : s.depth = t.depth := (live_eq_iff.1 h).1
  cases hs : s.pop? with
  | none => exact .inl ⟨rfl, pop?_eq_none_iff.2 (hd ▸ pop?_eq_none_iff.1 hs)⟩
  | some p =>
    cases ht : t.pop? with
    | none =>
      rw [pop?_eq_none_iff.2 (hd ▸ pop?_eq_none_iff.1 ht)] at hs
      cases hs
    | some q =>
      obtain ⟨a, s'⟩ := p
      obtain ⟨b, t'⟩ := q
      have hlive : s'.live ++ [a] = t'.live ++ [b] := by
        rw [← live_of_pop? hs, ← live_of_pop? ht, h]
      obtain ⟨hl, hab⟩ := List.append_inj' hlive rfl
      cases hab
      exact .inr ⟨a, s', t', rfl, rfl, hl⟩

end CallStack

namespace Machine

/-! ## The list of return addresses -/

/-- What the live return addresses become by what a step did. -/
def liveAfter (live : List Word) : Except Failure Executed → List Word
  | .ok ⟨address, .call _⟩ => live ++ [address + 2]
  | .ok ⟨_, .ret⟩ => live.dropLast
  | _ => live

theorem execute_stack {m m' : Machine} {i : Instruction} {address : Word} {press : Option Key}
    (h : m.execute i address press = .ok m') :
    match i with
    | .call _ => m.stack.push? m.pc = some m'.stack
    | .ret => m.stack.pop? = some (m'.pc, m'.stack)
    | _ => m'.stack = m.stack := by
  cases i with
  | call a =>
    simp only [execute] at h
    split at h
    next s hs => cases h; exact hs
    next => cases h
  | ret =>
    simp only [execute] at h
    split at h
    next s hs => cases h; exact hs
    next => cases h
  | skipDown x | skipUp x =>
    obtain ⟨k, -, rfl⟩ := map_eq_ok_iff.1 h
    show (m.skipIf _).stack = m.stack
    rw [skipIf_eq]
  | awaitKey x => cases press <;> cases h <;> rfl
  | _ =>
    simp only [execute, skipIf_eq, yieldLogic_eq, passBlock_eq] at h
    cases h
    rfl

theorem live_step (m : Machine) (press : Option Key.Reference) :
    (m.step press).2.stack.live = liveAfter m.stack.live (m.step press).1 := by
  have h := m.stepsTo press
  generalize m.step press = r at h
  cases h with
  | unresolved | undecodable | heldUp => rfl
  | @done key i m' hp hw ho hx =>
    have hs := execute_stack hx
    cases i with
    | call a => exact CallStack.live_of_push? hs
    | ret =>
      have hl : m.stack.live = m'.stack.live ++ [m'.pc] := CallStack.live_of_pop? hs
      simp [liveAfter, hl]
    | _ => exact congrArg CallStack.live hs

/-- A return goes to the newest return address. -/
theorem live_of_ret {m : Machine} {press : Option Key.Reference} {b : Word}
    (hr : (m.step press).1 = .ok ⟨b, .ret⟩) :
    m.stack.live = (m.step press).2.stack.live ++ [(m.step press).2.pc] := by
  have h := m.stepsTo press
  generalize m.step press = r at h hr
  cases h with
  | unresolved | undecodable | heldUp => cases hr
  | done hp hw ho hx =>
    cases hr
    exact CallStack.live_of_pop? (execute_stack hx)

/-- After any steps the live return addresses are what the calls and returns
among them made of the list. -/
theorem live_after (m : Machine) (presses : List (Option Key.Reference)) :
    (m.after presses).stack.live = (m.results presses).foldl liveAfter m.stack.live := by
  induction presses generalizing m with
  | nil => rfl
  | cons p ps ih => rw [after_cons, ih, results, List.foldl_cons, live_step]

/-! ## Returning to the caller -/

/-- What a step does to addresses at the bottom of the list: it keeps them,
unless it returns to the last of them. -/
theorem step_keeps_bottom {m : Machine} {bottom : List Word} {a : Word}
    (press : Option Key.Reference) (h : bottom ++ [a] <+: m.stack.live) :
    bottom ++ [a] <+: (m.step press).2.stack.live ∨
      ((∃ b, (m.step press).1 = .ok ⟨b, .ret⟩) ∧ (m.step press).2.stack.live = bottom ∧
        (m.step press).2.pc = a) := by
  have hlive := live_step m press
  rcases hr : (m.step press).1 with e | ⟨b, i⟩
  · rw [hr] at hlive
    exact .inl (hlive ▸ h)
  rw [hr] at hlive
  cases i with
  | call t => exact .inl (hlive ▸ h.trans (List.prefix_append _ _))
  | ret =>
    have hpop := live_of_ret hr
    rw [hpop] at h
    rcases List.prefix_concat_iff.1 h with heq | hpre
    · obtain ⟨hl, ha⟩ := List.append_inj' heq rfl
      exact .inr ⟨⟨b, rfl⟩, hl.symm, (List.singleton_inj.1 ha).symm⟩
    · exact .inl hpre
  | _ => exact .inl (hlive ▸ h)

theorem after_keeps_bottom {m : Machine} {bottom : List Word} {a : Word} :
    ∀ (presses : List (Option Key.Reference)), bottom ++ [a] <+: m.stack.live →
      (∀ k ≤ presses.length, (m.after (presses.take k)).stack.depth ≠ bottom.length) →
      bottom ++ [a] <+: (m.after presses).stack.live := by
  intro presses
  induction presses generalizing m with
  | nil => exact fun h _ => h
  | cons p ps ih =>
    intro h hdeep
    refine ih ?_ fun k hk => hdeep (k + 1) (by simpa using hk)
    rcases step_keeps_bottom p h with h' | ⟨-, hl, -⟩
    · exact h'
    · refine absurd ?_ (hdeep 1 (by simp))
      simp [← CallStack.length_live, hl]

/-- The step that brings the depth back to where a call was made returns behind
the call. -/
theorem returns_behind_call {m : Machine} {first last : Option Key.Reference}
    {between : List (Option Key.Reference)} {a : Word} {t : Address}
    (hcall : (m.step first).1 = .ok ⟨a, .call t⟩)
    (hdeep : ∀ k ≤ between.length,
      (m.after (first :: between.take k)).stack.depth ≠ m.stack.depth)
    (hback : (m.after (first :: between ++ [last])).stack.depth = m.stack.depth) :
    (∃ b, ((m.after (first :: between)).step last).1 = .ok ⟨b, .ret⟩) ∧
      (m.after (first :: between ++ [last])).pc = a + 2 := by
  have hlive : (m.step first).2.stack.live = m.stack.live ++ [a + 2] := by
    rw [live_step, hcall, liveAfter]
  have hbottom : m.stack.live ++ [a + 2] <+: (m.after (first :: between)).stack.live :=
    after_keeps_bottom between (hlive ▸ List.prefix_refl _)
      fun k hk => by simpa using hdeep k hk
  rw [after_concat] at hback ⊢
  rcases step_keeps_bottom last hbottom with h | ⟨hret, -, hpc⟩
  · have := h.length_le
    simp only [List.length_append, CallStack.length_live, List.length_singleton] at this
    omega
  · exact ⟨hret, hpc⟩

/-! ## Dead slots -/

/-- Machines that differ only in slots of the stack beyond the live ones. -/
def SameLive (m n : Machine) : Prop :=
  ∃ s : CallStack, n = { m with stack := s } ∧ s.depth = m.stack.depth ∧
    ∀ k (hk : k < 16), k < m.stack.depth → s.slots[k] = m.stack.slots[k]

theorem sameLive_iff {m n : Machine} :
    m.SameLive n ↔ ∃ s : CallStack, n = { m with stack := s } ∧ s.live = m.stack.live := by
  simp only [SameLive, CallStack.live_eq_iff]

/-- The same failure, or machines alike but for dead slots. -/
def Alike : Except Fault.Cause Machine → Except Fault.Cause Machine → Prop
  | .error c, .error d => c = d
  | .ok m, .ok n => m.SameLive n
  | _, _ => False

/-- An instruction does the same whatever is in the dead slots. -/
theorem execute_alike (m : Machine) {s : CallStack} (h : s.live = m.stack.live) (i : Instruction)
    (address : Word) (press : Option Key) :
    Alike (m.execute i address press) ({ m with stack := s }.execute i address press) := by
  cases i with
  | call a =>
    rcases CallStack.push?_congr h m.pc with ⟨hs, hm⟩ | ⟨s', t', hs, hm, hl⟩
    · simp only [execute, hs, hm, Alike]
    · simp only [execute, hs, hm, Alike]
      exact sameLive_iff.2 ⟨s', rfl, hl⟩
  | ret =>
    rcases CallStack.pop?_congr h with ⟨hs, hm⟩ | ⟨a, s', t', hs, hm, hl⟩
    · simp only [execute, hs, hm, Alike]
    · simp only [execute, hs, hm, Alike]
      exact sameLive_iff.2 ⟨s', rfl, hl⟩
  | skipDown x | skipUp x =>
    have hsel : { m with stack := s }.selected x = m.selected x := rfl
    simp only [execute, hsel]
    cases m.selected x with
    | error c => rfl
    | ok b =>
      simp only [Except.map, skipIf_eq, Alike]
      exact sameLive_iff.2 ⟨s, rfl, h⟩
  | awaitKey x => cases press <;> exact sameLive_iff.2 ⟨s, rfl, h⟩
  | _ =>
    simp only [execute, skipIf_eq, yieldLogic_eq, passBlock_eq]
    exact sameLive_iff.2 ⟨s, rfl, h⟩

theorem step_sameLive {m n : Machine} (h : m.SameLive n) (press : Option Key.Reference) :
    (n.step press).1 = (m.step press).1 ∧ (m.step press).2.SameLive (n.step press).2 := by
  obtain ⟨s, rfl, hs⟩ := sameLive_iff.1 h
  unfold step
  split
  next => exact ⟨rfl, h⟩
  next key _ =>
    unfold perform
    have hfetch : { m with stack := s }.tick.fetch = m.tick.fetch := rfl
    rw [hfetch]
    split
    next => exact ⟨rfl, sameLive_iff.2 ⟨s, rfl, hs⟩⟩
    next i _ =>
      have halike : Alike (m.tick.advance.execute i m.tick.pc key)
          ({ m with stack := s }.tick.advance.execute i m.tick.pc key) :=
        execute_alike m.tick.advance hs i m.tick.pc key
      have hpc : { m with stack := s }.tick.pc = m.tick.pc := rfl
      rw [hpc]
      revert halike
      cases m.tick.advance.execute i m.tick.pc key <;>
        cases { m with stack := s }.tick.advance.execute i m.tick.pc key
      case error.error c d =>
        rintro rfl
        exact ⟨rfl, sameLive_iff.2 ⟨s, rfl, hs⟩⟩
      case ok.ok m' n' => exact fun hmn => ⟨rfl, hmn⟩
      case error.ok => exact False.elim
      case ok.error => exact False.elim

theorem after_sameLive {m n : Machine} (h : m.SameLive n) (presses : List (Option Key.Reference)) :
    n.results presses = m.results presses ∧ (m.after presses).SameLive (n.after presses) := by
  induction presses generalizing m n with
  | nil => exact ⟨rfl, h⟩
  | cons p ps ih =>
    obtain ⟨hr, hm⟩ := step_sameLive h p
    obtain ⟨hrs, hms⟩ := ih hm
    exact ⟨by rw [results, results, hr, hrs], hms⟩

/-- A dump shows nothing of the dead slots. -/
theorem dump_sameLive {m n : Machine} (h : m.SameLive n) (last : Option Instruction) :
    n.dump last = m.dump last := by
  obtain ⟨s, rfl, hs⟩ := sameLive_iff.1 h
  have hdepth : s.depth = m.stack.depth := (CallStack.live_eq_iff.1 hs).1
  have hshows : ShowsAlike { m with stack := s } m := ⟨rfl, rfl, rfl, rfl, rfl, rfl, hdepth, hs⟩
  exact dump_congr hshows last

/-- **The call stack is a list of at most sixteen return addresses.** After any
steps, failing ones included, the live addresses are what the calls and returns
among them made of the list, and the stack pointer is its length. A call has
its own address, and a return goes to the last address of the list. The step
that first brings the depth back to where a call was made is a return, and goes
behind that call. Machines that differ only in dead slots answer alike for ever. -/
theorem callStack_lifo (m : Machine) :
    (∀ presses, (m.after presses).stack.live =
        (m.results presses).foldl liveAfter m.stack.live ∧
      (m.after presses).stack.depth = (m.after presses).stack.live.length ∧
      (m.after presses).stack.live.length ≤ 16) ∧
    (∀ presses press d, ((m.after presses).step press).1 = .ok d →
      d.address = (m.after presses).pc ∧
      (d.instruction = .ret → (m.after presses).stack.live =
        (m.after (presses ++ [press])).stack.live ++ [(m.after (presses ++ [press])).pc])) ∧
    (∀ first between last a t, (m.step first).1 = .ok ⟨a, .call t⟩ →
      (∀ k ≤ between.length,
        (m.after (first :: between.take k)).stack.depth ≠ m.stack.depth) →
      (m.after (first :: between ++ [last])).stack.depth = m.stack.depth →
      (∃ b, ((m.after (first :: between)).step last).1 = .ok ⟨b, .ret⟩) ∧
        (m.after (first :: between ++ [last])).pc = a + 2) ∧
    (∀ n, m.SameLive n → ∀ presses, n.results presses = m.results presses ∧
      (∀ last, (n.after presses).dump last = (m.after presses).dump last) ∧
      (m.after presses).SameLive (n.after presses)) := by
  refine ⟨fun presses => ⟨live_after m presses, (CallStack.length_live _).symm, ?_⟩, ?_, ?_, ?_⟩
  · rw [CallStack.length_live]
    exact (m.after presses).stack.depth_le
  · intro presses press d hd
    refine ⟨address_of_ok hd, fun hret => ?_⟩
    obtain ⟨b, i⟩ := d
    cases hret
    rw [after_concat]
    exact live_of_ret hd
  · intro first between last a t hcall hdeep hback
    exact returns_behind_call hcall hdeep hback
  · intro n h presses
    obtain ⟨hr, hm⟩ := after_sameLive h presses
    exact ⟨hr, dump_sameLive hm, hm⟩

end Machine
end Chip8
