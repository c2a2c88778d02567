/-
A process with its settings as objects: to look at the settings is to hold the object
in force, which others hold too. The cache of settings is such a process with the
objects left out: whatever a process does, the object in force has what the cache
says, also if it is put in force again after others. The runner overrides settings in
copies, so it only has the settings looked at.
-/
import Chip8.Proofs.Settings.History
import Chip8.Proofs.Tool.Runner

namespace Chip8

open Settings (Field)

/-- A process: all settings objects that were made, and the one in force. The place of
an object is what refers to it. -/
structure Process where
  environment : Environment := []
  objects : List Settings := []
  current : Option Nat := none
  lt_of_current : ∀ r ∈ current, r < objects.length := by simp

namespace Process

/-! ## Objects -/

/-- What an object holds. -/
def read (p : Process) (r : Nat) : Settings := p.objects[r]?.getD {}

/-- The cache that the process amounts to. -/
def cache (p : Process) : SettingsCache :=
  { environment := p.environment, current := p.current.map p.read }

/-- Makes an object. -/
def make (p : Process) (s : Settings) : Process × Nat :=
  ({ p with
      objects := p.objects ++ [s]
      lt_of_current := fun r hr => by
        rw [List.length_append]
        exact Nat.lt_add_right _ (p.lt_of_current r hr) },
    p.objects.length)

/-- Changes an object in place. -/
def modify (p : Process) (r : Nat) (change : Settings → Settings) : Process :=
  { p with
    objects := p.objects.modify r change
    lt_of_current := fun r hr => by
      rw [List.length_modify]
      exact p.lt_of_current r hr }

/-- Puts an object in force. -/
def assign (p : Process) (r : Nat) (h : r < p.objects.length) : Process :=
  { p with current := some r, lt_of_current := fun _ hr => Option.mem_some.1 hr ▸ h }

/-- Drops the object in force. -/
def drop (p : Process) : Process := { p with current := none, lt_of_current := by simp }

/-- Replaces the environment. -/
def setEnvironment (p : Process) (env : Environment) : Process := { p with environment := env }

theorem lt_make (p : Process) (s : Settings) : (p.make s).2 < (p.make s).1.objects.length := by
  simp [make]

/-- The object in force; it is made from the environment if there is none. -/
def look (p : Process) : Process × Nat :=
  match p.current with
  | some r => (p, r)
  | none =>
    let made := p.make (.ofEnvironment p.environment)
    (made.1.assign made.2 (p.lt_make _), made.2)

/-- A copy of an object with a value of its own in a field, or the object itself. -/
def replacing (p : Process) (r : Nat) (f : Field) (value : Option f.Value) : Process × Nat :=
  match value with
  | none => (p, r)
  | some value => p.make (f.put value (p.read r))

/-- The settings of a request: the object in force, or a copy that its options override. -/
def override (p : Process) (q : Tool.Runner.Request) : Process × Nat :=
  let looked := p.look
  let paced := looked.1.replacing looked.2 .speed q.speed
  paced.1.replacing paced.2 .startHalted q.paused

variable {p : Process} {r : Nat}

theorem read_of_lt_make (h : r < p.objects.length) (s : Settings) :
    (p.make s).1.read r = p.read r := by
  rw [read, read]
  exact congrArg (Option.getD · {}) (List.getElem?_append_left h)

theorem read_make (p : Process) (s : Settings) : (p.make s).1.read (p.make s).2 = s := by
  simp [make, read]

theorem read_modify (h : r < p.objects.length) (change : Settings → Settings) :
    (p.modify r change).read r = change (p.read r) := by
  simp [modify, read, List.getElem?_modify_eq, List.getElem?_eq_getElem h]

/-! ## The cache of a process -/

theorem cache_make (p : Process) (s : Settings) : (p.make s).1.cache = p.cache := by
  have hread : (p.current.map (p.make s).1.read) = p.current.map p.read :=
    Option.map_congr fun r hr => read_of_lt_make (p.lt_of_current r hr) s
  exact congrArg (SettingsCache.mk p.environment) hread

theorem cache_assign (h : r < p.objects.length) :
    (p.assign r h).cache = p.cache.assign (some (p.read r)) := rfl

theorem current_cache (h : p.current = some r) : p.cache.current = some (p.read r) :=
  congrArg (Option.map p.read) h

theorem current_look (p : Process) : p.look.1.current = some p.look.2 := by
  cases h : p.current with
  | some r => simp only [look, h]
  | none =>
    simp only [look, h]
    rfl

theorem cache_look (p : Process) : p.look.1.cache = p.cache.filled := by
  cases h : p.current with
  | some r =>
    simp only [look, h, SettingsCache.filled_of_current (current_cache h)]
  | none =>
    have hnone : p.cache.current = none := congrArg (Option.map p.read) h
    have hsettings : p.cache.settings = .ofEnvironment p.environment := by
      rw [SettingsCache.settings, hnone]
      rfl
    simp only [look, h, cache_assign, read_make, cache_make, SettingsCache.filled, hsettings]
    rfl

/-- Whoever looks holds an object with the settings in force. -/
theorem read_look (p : Process) : p.look.1.read p.look.2 = p.cache.settings := by
  rw [← SettingsCache.settings_of_current (current_cache p.current_look), cache_look]
  rfl

theorem cache_modify_look (p : Process) (change : Settings → Settings) :
    (p.look.1.modify p.look.2 change).cache = p.cache.amend change := by
  have hlt := p.look.1.lt_of_current _ p.current_look
  have hread : (p.look.1.modify p.look.2 change).read p.look.2 = change p.cache.settings := by
    rw [read_modify hlt, read_look]
  have hcurrent :
      (p.look.1.modify p.look.2 change).cache.current = some (change p.cache.settings) := by
    rw [← hread]
    exact current_cache p.current_look
  have henvironment : p.look.1.environment = p.environment :=
    congrArg SettingsCache.environment p.cache_look
  exact congrArg₂ SettingsCache.mk henvironment hcurrent

/-! ## Overriding -/

theorem cache_replacing (p : Process) (r : Nat) (f : Field) (value : Option f.Value) :
    (p.replacing r f value).1.cache = p.cache := by
  cases value with
  | none => rfl
  | some value => exact p.cache_make _

theorem read_replacing (p : Process) (r : Nat) (f : Field) (value : Option f.Value) :
    (p.replacing r f value).1.read (p.replacing r f value).2 =
      f.put (value.getD (f.get (p.read r))) (p.read r) := by
  cases value with
  | none => exact (f.put_get _).symm
  | some value => exact p.read_make _

theorem cache_override (p : Process) (q : Tool.Runner.Request) :
    (p.override q).1.cache = p.cache.filled := by
  rw [override, cache_replacing, cache_replacing, cache_look]

theorem read_override (p : Process) (q : Tool.Runner.Request) :
    (p.override q).1.read (p.override q).2 = Tool.Runner.settingsFor q p.cache.settings := by
  rw [override, read_replacing, read_replacing, read_look]
  rfl

/-! ## Deeds -/

/-- What a process can do about its settings. -/
inductive Deed
  | replaceEnvironment (env : Environment)
  | make (s : Settings)
  | look
  /-- Puts in force an object that was made before, if there is one. -/
  | assign (r : Nat)
  | drop
  /-- Gives the object in force a value in a field. -/
  | edit (f : Field) (value : f.Value)
  /-- Serves a request of the runner. -/
  | run (q : Tool.Runner.Request)

/-- Carries out a deed. -/
def act (p : Process) : Deed → Process
  | .replaceEnvironment env => p.setEnvironment env
  | .make s => (p.make s).1
  | .look => p.look.1
  | .assign r => if h : r < p.objects.length then p.assign r h else p
  | .drop => p.drop
  | .edit f value => p.look.1.modify p.look.2 (f.put value)
  | .run q => (p.override q).1

/-- What a deed comes to for the cache. An object counts as it is when it is put in force. -/
def operations (p : Process) : Deed → List SettingsCache.Operation
  | .replaceEnvironment env => [.replaceEnvironment env]
  | .make _ => []
  | .look | .run _ => [.look]
  | .assign r => if r < p.objects.length then [.assign (some (p.read r))] else []
  | .drop => [.assign none]
  | .edit f value => [.edit f value]

/-- The process after some deeds. -/
def after (p : Process) (deeds : List Deed) : Process := deeds.foldl act p

/-- What some deeds come to for the cache. -/
def record (p : Process) : List Deed → List SettingsCache.Operation
  | [] => []
  | d :: deeds => p.operations d ++ (p.act d).record deeds

theorem cache_act (p : Process) (d : Deed) : (p.act d).cache = p.cache.after (p.operations d) := by
  cases d with
  | replaceEnvironment env => rfl
  | make s => exact p.cache_make s
  | look => exact p.cache_look
  | assign r =>
    by_cases h : r < p.objects.length
    · rw [act, dif_pos h, operations, if_pos h, cache_assign]
      rfl
    · rw [act, dif_neg h, operations, if_neg h]
      rfl
  | drop => rfl
  | edit f value => exact p.cache_modify_look _
  | run q => exact p.cache_override q

/-- The cache follows the process. -/
theorem cache_after (p : Process) (deeds : List Deed) :
    (p.after deeds).cache = p.cache.after (p.record deeds) := by
  induction deeds generalizing p with
  | nil => rfl
  | cons d deeds ih =>
    rw [record, SettingsCache.after_append, ← cache_act]
    exact ih (p.act d)

end Process

/-! ## Runs -/

namespace SettingsCache

/-- The runner leaves the settings as they are, but may be the first to look at them. -/
theorem cache_run (files : FileTree) (c : SettingsCache) (clock : Supply Float)
    (random : Supply Byte) (interruptAt : Option Nat) (arguments : List String) :
    let c' := (Tool.Runner.run files c clock random interruptAt arguments).2
    c' = c ∨ c.current = none ∧ c' = c.filled := by
  intro c'
  have hkeep : c' = c ∨ c' = c.filled := by
    have hprepare :
        c' = (Tool.Runner.prepare files c clock random interruptAt arguments).2 := rfl
    rw [hprepare, Tool.Runner.prepare]
    split
    · exact .inl rfl
    · split
      · exact .inl rfl
      · exact .inl rfl
      · split
        · exact .inl rfl
        · exact .inr rfl
  cases hcurrent : c.current with
  | none => exact hkeep.imp_right fun h => ⟨rfl, h⟩
  | some s =>
    rw [filled_of_current hcurrent, or_self] at hkeep
    exact .inl hkeep

/-- **Settings are a snapshot.** The settings of a process are those assigned last, or what
its environment said when they were first looked at, with what fields were given since; a
later change of the environment does not show in them until they are dropped. The object in
force has what the cache says, and runs override settings in copies. -/
theorem settings_areSnapshot :
    (∀ (env : Environment) (ops : List Operation), (∃ base since, GoesBack env ops base since) ∧
      ∀ base since, GoesBack env ops base since →
        Edited base since ((fresh env).after ops).settings) ∧
    (∀ (c : SettingsCache) (o : Operation) (later : List Operation), o.accesses = true →
      (∀ o ∈ later, o ≠ .assign none) →
        (c.after (o :: later)).settings =
          (c.after (o :: later.filter fun o => !o.replaces)).settings) ∧
    (∀ (p : Process) (deeds : List Process.Deed),
      (p.after deeds).look.1.read (p.after deeds).look.2 =
        (p.cache.after (p.record deeds)).settings) ∧
    (∀ (p : Process) (q : Tool.Runner.Request),
      (p.override q).1.read (p.override q).2 = Tool.Runner.settingsFor q p.cache.settings ∧
        (p.override q).1.cache = p.look.1.cache ∧
        (p.current.isSome = true → (p.override q).1.cache = p.cache)) ∧
    ∀ (files : FileTree) (c : SettingsCache) (clock : Supply Float) (random : Supply Byte)
      (interruptAt : Option Nat) (arguments : List String),
      let c' := (Tool.Runner.run files c clock random interruptAt arguments).2
      c' = c ∨ c.current = none ∧ c' = c.filled := by
  refine ⟨fun env ops => ⟨exists_goesBack env ops, fun base since h => ?_⟩,
    fun c o later ho hlater => ?_, fun p deeds => ?_, fun p q => ⟨p.read_override q, ?_, ?_⟩,
    cache_run⟩
  · rw [settings_after_of_goesBack h]
    exact edited_foldl_change base since
  · have hin := current_act_of_accesses ho c
    exact settings_after_filter hin hin hlater
  · rw [Process.read_look, Process.cache_after]
  · rw [Process.cache_override, Process.cache_look]
  · intro hcurrent
    obtain ⟨r, hr⟩ := Option.isSome_iff_exists.1 hcurrent
    rw [Process.cache_override, filled_of_current (Process.current_cache hr)]

/-- A look at the settings, another scale in the environment, and two speeds. -/
def lookedAtBetween : List Operation :=
  [.look, .replaceEnvironment [("CHIP8_SCALE", "9")], .edit .speed 5, .edit .speed 6]

/-- A process that has looked at its settings. -/
def settled : Process := { objects := [{}], current := some 0 }

theorem settings_lookedAtBetween :
    let s := ((fresh []).after
      (.assign none :: .replaceEnvironment [("CHIP8_SCALE", "3")] :: lookedAtBetween)).settings
    let hurried : Tool.Runner.Request :=
      { rom := { parts := ["pong"] }, speed := some 60, paused := some true }
    s.speed = 6 ∧ s.scale = 3 ∧
      ((fresh []).after lookedAtBetween).settings =
        ((fresh []).after [.look, .edit .speed 5, .edit .speed 6]).settings ∧
      settled.current.isSome = true ∧ (settled.override hurried).1.cache = settled.cache := by
  intro s hurried
  obtain ⟨hfields, hhidden, -, hcopies, -⟩ := settings_areSnapshot
  have hgoes : GoesBack [] _ _ lookedAtBetween :=
    .lookedAt [.assign none] [.replaceEnvironment [("CHIP8_SCALE", "3")]] lookedAtBetween
      (.inr ⟨[], rfl⟩) (by simp [Operation.replaces])
      (by simp [lookedAtBetween, Operation.accesses]) (by simp [lookedAtBetween, Operation.assigns])
  have hedited := (hfields _ _).2 _ _ hgoes
  have hspeed := hedited.last .speed 6 (lookedAtBetween.take 3) [] rfl (by simp)
  have hscale := hedited.kept .scale (by simp [lookedAtBetween])
  exact ⟨hspeed, hscale.trans (by decide), hhidden (fresh []) .look _ rfl (by simp), rfl,
    (hcopies settled hurried).2.2 rfl⟩

end SettingsCache
end Chip8
