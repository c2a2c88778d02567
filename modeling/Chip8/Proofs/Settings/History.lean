/-
The settings of a process as a record of what was done to them. They go back to the
settings that were assigned last, or, if these were dropped or there were none, to
the environment as it was when the settings were first looked at since then; and
every field has the value it was given last since then. The environment is not looked
at again before the settings are dropped.
-/
import Chip8.Proofs.Settings
import Mathlib.Data.List.Induction
import Mathlib.Data.List.TakeWhile

namespace Chip8

namespace Settings.Field

theorem get_put (f : Field) (value : f.Value) (s : Settings) : f.get (f.put value s) = value := by
  cases f <;> rfl

theorem get_put_of_ne {f g : Field} (h : g ≠ f) (value : g.Value) (s : Settings) :
    f.get (g.put value s) = f.get s := by
  cases f <;> cases g <;> first | rfl | exact absurd rfl h

end Settings.Field

namespace SettingsCache

open Settings (Field)

/-! ## Operations -/

/-- What can be done to the settings of a process. -/
inductive Operation
  | replaceEnvironment (env : Environment)
  | look
  | assign (s : Option Settings)
  | edit (f : Field) (value : f.Value)

namespace Operation

/-- The settings are looked at, if only to change one of their fields. -/
def accesses : Operation → Bool
  | look | edit .. => true
  | _ => false

/-- Settings are put in force or dropped. -/
def assigns : Operation → Bool
  | assign _ => true
  | _ => false

def replaces : Operation → Bool
  | replaceEnvironment _ => true
  | _ => false

/-- What becomes of settings that are in force and stay so. -/
def change : Operation → Settings → Settings
  | edit f value, s => f.put value s
  | _, s => s

end Operation

/-- Carries out an operation. -/
def act (c : SettingsCache) : Operation → SettingsCache
  | .replaceEnvironment env => c.setEnvironment env
  | .look => c.filled
  | .assign s => c.assign s
  | .edit f value => c.amend (f.put value)

/-- The cache after some operations. -/
def after (c : SettingsCache) (ops : List Operation) : SettingsCache := ops.foldl act c

variable {c c' : SettingsCache} {s : Settings} {env : Environment} {o : Operation}
  {ops before since : List Operation}

theorem after_append (c : SettingsCache) (ops later : List Operation) :
    c.after (ops ++ later) = (c.after ops).after later := List.foldl_append

/-! ## What is in force -/

theorem settings_of_current (h : c.current = some s) : c.settings = s := by
  rw [settings, h, Option.getD_some]

theorem filled_of_current (h : c.current = some s) : c.filled = c := by
  rw [filled, settings_of_current h, ← h]

theorem current_act (h : c.current = some s) (ho : o.assigns = false) :
    (c.act o).current = some (o.change s) := by
  have hs := settings_of_current h
  cases o with
  | replaceEnvironment env => exact h
  | look => exact congrArg some hs
  | assign s => cases ho
  | edit f value => exact congrArg (fun s => some (f.put value s)) hs

/-- Settings in force are what the changes make of them. -/
theorem current_after (h : c.current = some s) (hops : ∀ o ∈ ops, o.assigns = false) :
    (c.after ops).current = some (ops.foldl (fun s o => o.change s) s) := by
  induction ops generalizing c s with
  | nil => exact h
  | cons o ops ih =>
    exact ih (current_act h (hops o List.mem_cons_self)) fun o ho => hops o (List.mem_cons_of_mem _ ho)

theorem current_act_of_accesses (ho : o.accesses = true) (c : SettingsCache) :
    (c.act o).current = some (o.change c.settings) := by
  cases o with
  | look | edit f value => rfl
  | replaceEnvironment | assign => cases ho

/-- Settings are in force from the first look on. -/
theorem settings_after_of_head (hfirst : ∀ o ∈ ops.head?, o.accesses = true)
    (hops : ∀ o ∈ ops, o.assigns = false) (c : SettingsCache) :
    (c.after ops).settings = ops.foldl (fun s o => o.change s) c.settings := by
  cases ops with
  | nil => rfl
  | cons o ops =>
    have hin := current_act_of_accesses (hfirst o rfl) c
    have hrest := current_after hin fun o ho => hops o (List.mem_cons_of_mem _ ho)
    exact settings_of_current hrest

theorem current_after_of_replaces (hops : ∀ o ∈ ops, o.replaces = true) (c : SettingsCache) :
    (c.after ops).current = c.current := by
  induction ops generalizing c with
  | nil => rfl
  | cons o ops ih =>
    have ho := hops o List.mem_cons_self
    cases o with
    | replaceEnvironment env =>
      exact ih (fun o ho => hops o (List.mem_cons_of_mem _ ho)) (c.setEnvironment env)
    | look | assign | edit => cases ho

/-! ## The environment -/

/-- The environment that some operations leave. -/
def environmentOf (env : Environment) : List Operation → Environment
  | [] => env
  | .replaceEnvironment env :: ops => environmentOf env ops
  | _ :: ops => environmentOf env ops

theorem environment_after (c : SettingsCache) (ops : List Operation) :
    (c.after ops).environment = environmentOf c.environment ops := by
  induction ops generalizing c with
  | nil => rfl
  | cons o ops ih =>
    cases o with
    | replaceEnvironment | look | assign | edit => exact ih _

/-! ## Fields -/

/-- A field has the value it was given last, or else the one it had at first. -/
structure Edited (base : Settings) (since : List Operation) (s : Settings) : Prop where
  last : ∀ (f : Field) (value : f.Value) (before later : List Operation),
    since = before ++ .edit f value :: later → (∀ v, .edit f v ∉ later) → f.get s = value
  kept : ∀ f : Field, (∀ v, .edit f v ∉ since) → f.get s = f.get base

theorem get_foldl_change {f : Field} (h : ∀ v, .edit f v ∉ ops) (s : Settings) :
    f.get (ops.foldl (fun s o => o.change s) s) = f.get s := by
  induction ops generalizing s with
  | nil => rfl
  | cons o ops ih =>
    have hfirst : f.get (o.change s) = f.get s := by
      cases o with
      | edit g value =>
        refine Field.get_put_of_ne (fun hg => ?_) value s
        subst hg
        exact h value List.mem_cons_self
      | replaceEnvironment | look | assign => rfl
    exact (ih (fun v hv => h v (List.mem_cons_of_mem _ hv)) _).trans hfirst

theorem edited_foldl_change (base : Settings) (since : List Operation) :
    Edited base since (since.foldl (fun s o => o.change s) base) where
  last f value before later hsince hlater := by
    rw [hsince, List.foldl_append, List.foldl_cons, get_foldl_change hlater]
    exact f.get_put value _
  kept f h := get_foldl_change h base

/-! ## What settings go back to -/

/-- A process that has not looked at its settings yet. -/
def fresh (env : Environment) : SettingsCache := { environment := env }

/-- The settings after some operations go back to some settings, with some operations
since then. -/
inductive GoesBack (env : Environment) : List Operation → Settings → List Operation → Prop
  /-- Settings were put in force, and no others since. -/
  | assigned (before since : List Operation) (s : Settings)
      (hsince : ∀ o ∈ since, o.assigns = false) :
      GoesBack env (before ++ .assign (some s) :: since) s since
  /-- There were none or they were dropped, and the environment at the first look counts. -/
  | lookedAt (before quiet since : List Operation)
      (hbefore : before = [] ∨ ∃ earlier, before = earlier ++ [.assign none])
      (hquiet : ∀ o ∈ quiet, o.replaces = true)
      (hfirst : ∀ o ∈ since.head?, o.accesses = true)
      (hsince : ∀ o ∈ since, o.assigns = false) :
      GoesBack env (before ++ quiet ++ since)
        (.ofEnvironment (environmentOf env (before ++ quiet))) since

theorem settings_after_of_goesBack (h : GoesBack env ops s since) :
    ((fresh env).after ops).settings = since.foldl (fun s o => o.change s) s := by
  cases h with
  | assigned before since s hsince =>
    rw [after_append]
    have hin : (((fresh env).after before).act (.assign (some s))).current = some s := rfl
    have hrest := current_after hin hsince
    exact settings_of_current hrest
  | lookedAt before quiet since hbefore hquiet hfirst hsince =>
    have hnone : ((fresh env).after before).current = none := by
      rcases hbefore with rfl | ⟨earlier, rfl⟩
      · rfl
      · rw [after_append]
        rfl
    have hbase : ((fresh env).after (before ++ quiet)).settings =
        .ofEnvironment (environmentOf env (before ++ quiet)) := by
      have hcurrent : ((fresh env).after (before ++ quiet)).current = none := by
        rw [after_append, current_after_of_replaces hquiet, hnone]
      rw [settings, hcurrent, environment_after]
      rfl
    rw [after_append, settings_after_of_head hfirst hsince, hbase]

theorem exists_last_assign (ops : List Operation) : ∃ before since, ops = before ++ since ∧
    (∀ o ∈ since, o.assigns = false) ∧
    (before = [] ∨ ∃ earlier s, before = earlier ++ [.assign s]) := by
  induction ops using List.reverseRecOn with
  | nil => exact ⟨[], [], rfl, by simp, .inl rfl⟩
  | append_singleton ops o ih =>
    obtain ⟨before, since, rfl, hsince, hbefore⟩ := ih
    cases o with
    | assign s => exact ⟨_, [], (List.append_nil _).symm, by simp, .inr ⟨_, s, rfl⟩⟩
    | replaceEnvironment | look | edit =>
      refine ⟨before, since ++ [_], by rw [List.append_assoc], ?_, hbefore⟩
      intro o ho
      rcases List.mem_append.1 ho with ho | ho
      · exact hsince o ho
      · rw [List.mem_singleton.1 ho]
        rfl

theorem exists_goesBack (env : Environment) (ops : List Operation) :
    ∃ s since, GoesBack env ops s since := by
  obtain ⟨before, since, rfl, hsince, hbefore⟩ := exists_last_assign ops
  -- where no settings were put in force, the first look is sought
  have hlook : (before = [] ∨ ∃ earlier, before = earlier ++ [.assign none]) →
      ∃ s later, GoesBack env (before ++ since) s later := by
    intro hbefore
    let quiet := since.takeWhile fun o => !o.accesses
    let later := since.dropWhile fun o => !o.accesses
    have hfront : quiet <+: since := List.takeWhile_prefix _
    have hquiet : ∀ o ∈ quiet, o.replaces = true := by
      intro o ho
      have haccess := List.mem_takeWhile_imp ho
      have hassign := hsince o (hfront.subset ho)
      cases o with
      | replaceEnvironment => rfl
      | assign => cases hassign
      | look | edit => cases haccess
    have hfirst : ∀ o ∈ later.head?, o.accesses = true := by
      intro o ho
      have hstop := List.head?_dropWhile_not (fun o => !o.accesses) since
      rw [Option.mem_def.1 ho] at hstop
      exact Bool.not_eq_eq_eq_not.1 hstop
    have hlater : ∀ o ∈ later, o.assigns = false := fun o ho =>
      hsince o ((List.dropWhile_suffix _).subset ho)
    have hgoes : GoesBack env (before ++ quiet ++ later) _ later :=
      .lookedAt before quiet later hbefore hquiet hfirst hlater
    rw [List.append_assoc, List.takeWhile_append_dropWhile] at hgoes
    exact ⟨_, _, hgoes⟩
  rcases hbefore with rfl | ⟨earlier, s, rfl⟩
  · exact hlook (.inl rfl)
  · cases s with
    | none => exact hlook (.inr ⟨earlier, rfl⟩)
    | some s =>
      rw [List.append_assoc]
      exact ⟨s, since, .assigned earlier since s hsince⟩

/-! ## Changes of the environment -/

/-- Once settings are in force, the environment is out of sight until they are dropped. -/
theorem settings_after_filter (hcurrent : c.current = some s) (hcurrent' : c'.current = some s)
    (hops : ∀ o ∈ ops, o ≠ .assign none) :
    (c.after ops).settings = (c'.after (ops.filter fun o => !o.replaces)).settings := by
  induction ops generalizing c c' s with
  | nil => exact (settings_of_current hcurrent).trans (settings_of_current hcurrent').symm
  | cons o ops ih =>
    have hrest : ∀ o ∈ ops, o ≠ .assign none := fun o ho => hops o (List.mem_cons_of_mem _ ho)
    cases o with
    | replaceEnvironment env => exact ih (c := c.setEnvironment env) hcurrent hcurrent' hrest
    | assign given =>
      obtain ⟨s', rfl⟩ := Option.ne_none_iff_exists'.1 fun h =>
        hops _ List.mem_cons_self (congrArg Operation.assign h)
      have hin : ∀ c : SettingsCache, (c.assign (some s')).current = some s' := fun _ => rfl
      exact ih (hin c) (hin c') hrest
    | look => exact ih (current_act hcurrent rfl) (current_act hcurrent' rfl) hrest
    | edit f value => exact ih (current_act hcurrent rfl) (current_act hcurrent' rfl) hrest

end SettingsCache
end Chip8
