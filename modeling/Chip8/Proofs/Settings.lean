/-
Settings from the environment. They are gathered field by field, each from a
variable of its own, and what a text is refused for is caught, so there are always
settings. A field has the value that its variable stands for, and its default if
the variable is absent, empty or makes no sense for it.
-/
import Chip8.Proofs.Picture
import Chip8.Settings

namespace Chip8

namespace Settings

/-! ## Fields -/

/-- A field of the settings. -/
inductive Field
  | dialect
  | speed
  | scheme
  | scale
  | startHalted
deriving DecidableEq, Repr

namespace Field

/-- What a field holds. -/
abbrev Value : Field → Type
  | dialect | scheme => String
  | speed | scale => Int
  | startHalted => Bool

/-- The variable that a field is taken from. -/
def source : Field → String
  | dialect => "CHIP8_QUIRKS"
  | speed => "CHIP8_SPEED"
  | scheme => "CHIP8_SCHEME"
  | scale => "CHIP8_SCALE"
  | startHalted => "CHIP8_START_HALTED"

/-- The field in some settings. -/
def get : (f : Field) → Settings → f.Value
  | dialect => Settings.dialect
  | speed => Settings.speed
  | scheme => Settings.scheme
  | scale => Settings.scale
  | startHalted => Settings.startHalted

/-- Settings with another value in the field. -/
def put : (f : Field) → f.Value → Settings → Settings
  | dialect, value, s => { s with dialect := value }
  | speed, value, s => { s with speed := value }
  | scheme, value, s => { s with scheme := value }
  | scale, value, s => { s with scale := value }
  | startHalted, value, s => { s with startHalted := value }

/-- The value that a text has for a field. -/
def ofText? : (f : Field) → String → Option f.Value
  | dialect, text => dialectText? text
  | speed, text | scale, text => positive? text
  | scheme, text => schemeText? text
  | startHalted, text => some (affirms text)

theorem put_get (f : Field) (s : Settings) : f.put (f.get s) s = s := by
  cases f <;> rfl

/-- A field of the settings from an environment depends on its own variable only. -/
theorem get_ofEnvironment (f : Field) (env : Environment) : f.get (ofEnvironment env) =
    ((valueOf? env f.source).bind f.ofText?).getD (f.get {}) := by
  cases f with
  | startHalted => exact congrArg (Option.getD · false) Option.map_eq_bind
  | _ => rfl

end Field

/-! ## Gathering -/

/-- Why a text is refused. -/
inductive Refusal
  | dialect (u : Dialect.Unknown)
  | integer (f : Text.IntegerLiteral.Failure)

/-- Work on settings that may be refused halfway. What it has set by then stays set. -/
abbrev Gathering := ExceptT Refusal (StateM Settings)

/-- Work that ends where it is refused. -/
def ignoring (work : Gathering Unit) : Gathering Unit := tryCatch work fun _ => pure ()

/-- Takes the name of a dialect, once the dialect has been found. -/
def takeDialect (text : String) : Gathering Unit := do
  let _ ← MonadExcept.ofExcept ((Dialect.named text).mapError .dialect)
  modify (Field.dialect.put text)

/-- Reads an integer. -/
def readInteger (text : String) : Gathering Int :=
  MonadExcept.ofExcept ((Text.IntegerLiteral.parse .decimal text).mapError .integer)

/-- Takes a positive integer, which is read once to be compared and once to be kept. -/
def takePositive (put : Int → Settings → Settings) (text : String) : Gathering Unit := do
  if 0 < (← readInteger text) then
    let value ← readInteger text
    modify (put value)

/-- Takes the name of a colour scheme that there is. -/
def takeScheme (text : String) : Gathering Unit := do
  if (Scheme.named? text).isSome then
    modify (Field.scheme.put text)

/-- Takes the text of a variable for a field. -/
def Field.take : Field → String → Gathering Unit
  | dialect, text => ignoring (takeDialect text)
  | speed, text => ignoring (takePositive speed.put text)
  | scheme, text => takeScheme text
  | scale, text => ignoring (takePositive scale.put text)
  | startHalted, text => modify (startHalted.put (affirms text))

/-- Looks for a field in an environment. A variable without text counts as absent. -/
def Field.look (f : Field) (env : Environment) : Gathering Unit :=
  match valueOf? env f.source with
  | some text => f.take text
  | none => pure ()

/-- Gathers the settings that an environment asks for. -/
def gather (env : Environment) : Gathering Unit := do
  Field.dialect.look env
  Field.speed.look env
  Field.scheme.look env
  Field.scale.look env
  Field.startHalted.look env

/-- Whether the work is refused, and the settings after it. -/
def Gathering.outcome (work : Gathering Unit) (s : Settings) : Except Refusal Unit × Settings :=
  (work.run.run s).run

/-- Work that is never refused, and what it does. -/
def Gathering.Does (work : Gathering Unit) (f : Settings → Settings) : Prop :=
  ∀ s, work.outcome s = (.ok (), f s)

section Does

variable {work later : Gathering Unit} {g h : Settings → Settings}

theorem Gathering.outcome_seq (work later : Gathering Unit) (s : Settings) :
    Gathering.outcome (do work; later) s =
      match work.outcome s with
      | (.ok _, s') => later.outcome s'
      | (.error e, s') => (.error e, s') := by
  have hbind : ∀ result : Except Refusal Unit × Settings,
      ((ExceptT.bindCont (fun _ => later) result.1).run result.2).run =
        match result with
        | (.ok _, s') => later.outcome s'
        | (.error e, s') => (.error e, s') := by
    rintro ⟨_ | _, s'⟩ <;> rfl
  exact hbind _

theorem Gathering.Does.seq (hwork : work.Does g) (hlater : later.Does h) :
    Gathering.Does (do work; later) fun s => h (g s) := by
  intro s
  rw [Gathering.outcome_seq, hwork s]
  exact hlater (g s)

theorem does_modify (g : Settings → Settings) : Gathering.Does (modify g) g := fun _ => rfl

theorem does_takeDialect (text : String) : (ignoring (takeDialect text)).Does fun s =>
    Field.dialect.put ((dialectText? text).getD s.dialect) s := by
  intro s
  unfold takeDialect dialectText?
  cases Dialect.named text <;> rfl

theorem does_takeScheme (text : String) : (takeScheme text).Does fun s =>
    Field.scheme.put ((schemeText? text).getD s.scheme) s := by
  intro s
  unfold takeScheme schemeText?
  cases Scheme.named? text <;> rfl

theorem does_takePositive (get : Settings → Int) (put : Int → Settings → Settings)
    (hput : ∀ s, put (get s) s = s) (text : String) :
    (ignoring (takePositive put text)).Does fun s => put ((positive? text).getD (get s)) s := by
  intro s
  unfold takePositive readInteger positive? Text.IntegerLiteral.parse?
  cases Text.IntegerLiteral.parse .decimal text with
  | error e => exact congrArg (Except.ok (), ·) (hput s).symm
  | ok value =>
    have hread : (MonadExcept.ofExcept ((Except.ok value).mapError Refusal.integer) : Gathering Int) =
        pure value := rfl
    rw [hread, pure_bind, pure_bind, Except.toOption]
    by_cases hpos : 0 < value
    · have hkept : (some value).filter (0 < ·) = some value := by simp [hpos]
      rw [if_pos hpos, hkept]
      rfl
    · have hdropped : (some value).filter (0 < ·) = none := by simpa using hpos
      rw [if_neg hpos, hdropped]
      exact congrArg (Except.ok (), ·) (hput s).symm

theorem does_takeStartHalted (text : String) : (Field.startHalted.take text).Does fun s =>
    Field.startHalted.put ((Field.startHalted.ofText? text).getD (Field.startHalted.get s)) s := by
  -- as equations, since unification would first work out what the text says
  have htake : Field.startHalted.take text = modify (Field.startHalted.put (affirms text)) := rfl
  have hread : Field.startHalted.ofText? text = some (affirms text) := rfl
  simp only [htake, hread, Option.getD_some]
  exact does_modify (Field.startHalted.put (affirms text))

theorem does_take (f : Field) (text : String) :
    (f.take text).Does fun s => f.put ((f.ofText? text).getD (f.get s)) s := by
  cases f with
  | dialect => exact does_takeDialect text
  | speed => exact does_takePositive Settings.speed Field.speed.put (fun _ => rfl) text
  | scheme => exact does_takeScheme text
  | scale => exact does_takePositive Settings.scale Field.scale.put (fun _ => rfl) text
  | startHalted => exact does_takeStartHalted text

theorem does_look (f : Field) (env : Environment) : (f.look env).Does fun s =>
    f.put (((valueOf? env f.source).bind f.ofText?).getD (f.get s)) s := by
  intro s
  unfold Field.look
  cases valueOf? env f.source with
  | none => exact congrArg (Except.ok (), ·) (f.put_get s).symm
  | some text => exact does_take f text s

/-- Gathering is never refused. -/
theorem outcome_gather (env : Environment) :
    (gather env).outcome {} = (.ok (), ofEnvironment env) := by
  have hgather := (does_look .dialect env).seq ((does_look .speed env).seq ((does_look .scheme env).seq
    ((does_look .scale env).seq (does_look .startHalted env)))) {}
  refine hgather.trans (congrArg (Except.ok (), ·) ?_)
  simp only [Field.put, Field.get, Field.ofText?, Field.source, ofEnvironment, Option.map_eq_bind]
  rfl

end Does

/-! ## Fields from their variables -/

/-- A text makes sense for a field, and stands for a value. -/
def Field.Reads : (f : Field) → String → f.Value → Prop
  | dialect, text, value => (∃ d, Dialect.named text = .ok d) ∧ value = text
  | speed, text, value | scale, text, value =>
    Text.IntegerLiteral.parse .decimal text = .ok value ∧ 0 < value
  | scheme, text, value => (∃ colours, Scheme.named? text = some colours) ∧ value = text
  | startHalted, text, value => affirms text = true ∧ value = true

section Fields

variable {env : Environment} {name text : String} {f : Field} {value : f.Value}

theorem valueOf?_eq_some_iff :
    valueOf? env name = some text ↔ env.lookup name = some text ∧ text ≠ "" := by
  rw [valueOf?, Option.filter_eq_some_iff, decide_eq_true_iff]

theorem dialectText?_eq_some_iff (text : String) {v : String} :
    dialectText? text = some v ↔ (∃ d, Dialect.named text = .ok d) ∧ v = text := by
  unfold dialectText?
  cases Dialect.named text <;> simp [eq_comm]

theorem schemeText?_eq_some_iff (text : String) {v : String} :
    schemeText? text = some v ↔ (∃ colours, Scheme.named? text = some colours) ∧ v = text := by
  unfold schemeText?
  cases Scheme.named? text <;> simp [eq_comm]

theorem positive?_eq_some_iff (text : String) {v : Int} :
    positive? text = some v ↔ Text.IntegerLiteral.parse .decimal text = .ok v ∧ 0 < v := by
  unfold positive? Text.IntegerLiteral.parse?
  rw [Option.filter_eq_some_iff, decide_eq_true_iff]
  cases Text.IntegerLiteral.parse .decimal text <;> simp [Except.toOption]

theorem ofText?_of_reads (h : f.Reads text value) : f.ofText? text = some value := by
  cases f with
  | dialect => exact (dialectText?_eq_some_iff text).2 h
  | speed | scale => exact (positive?_eq_some_iff text).2 h
  | scheme => exact (schemeText?_eq_some_iff text).2 h
  | startHalted => exact congrArg some (h.1.trans h.2.symm)

/-- A text that says anything but yes says what holds anyway. -/
theorem reads_of_ofText? (h : f.ofText? text = some value) : f.Reads text value ∨ value = f.get {} := by
  cases f with
  | dialect => exact .inl ((dialectText?_eq_some_iff text).1 h)
  | speed | scale => exact .inl ((positive?_eq_some_iff text).1 h)
  | scheme => exact .inl ((schemeText?_eq_some_iff text).1 h)
  | startHalted =>
    cases ha : affirms text with
    | true => exact .inl ⟨ha, (Option.some.inj h).symm.trans ha⟩
    | false => exact .inr ((Option.some.inj h).symm.trans ha)

theorem get_of_reads (hlookup : env.lookup f.source = some text) (hne : text ≠ "")
    (h : f.Reads text value) : f.get (ofEnvironment env) = value := by
  rw [f.get_ofEnvironment, valueOf?_eq_some_iff.2 ⟨hlookup, hne⟩, Option.bind_some,
    ofText?_of_reads h, Option.getD_some]

/-- A field has its default, or what the text of its variable stands for. -/
theorem get_ofEnvironment_cases (env : Environment) (f : Field) :
    f.get (ofEnvironment env) = f.get {} ∨ ∃ text, env.lookup f.source = some text ∧ text ≠ "" ∧
      f.Reads text (f.get (ofEnvironment env)) := by
  rw [f.get_ofEnvironment]
  cases h : (valueOf? env f.source).bind f.ofText? with
  | none => exact .inl rfl
  | some value =>
    obtain ⟨text, htext, hvalue⟩ := Option.bind_eq_some_iff.1 h
    obtain ⟨hlookup, hne⟩ := valueOf?_eq_some_iff.1 htext
    rcases reads_of_ofText? hvalue with hreads | hdefault
    · exact .inr ⟨text, hlookup, hne, hreads⟩
    · exact .inl hdefault

theorem get_of_not_reads (h : ∀ text value, env.lookup f.source = some text → text ≠ "" →
    ¬ f.Reads text value) : f.get (ofEnvironment env) = f.get {} := by
  refine (get_ofEnvironment_cases env f).resolve_right ?_
  rintro ⟨text, hlookup, hne, hreads⟩
  exact h text _ hlookup hne hreads

theorem get_congr {env' : Environment} (h : env.lookup f.source = env'.lookup f.source) :
    f.get (ofEnvironment env) = f.get (ofEnvironment env') := by
  rw [f.get_ofEnvironment, f.get_ofEnvironment, valueOf?, valueOf?, h]

end Fields

/-! ## Valid settings -/

/-- Settings that a machine can be run and shown with. -/
structure Valid (s : Settings) : Prop where
  dialect : ∃ d, s.namedDialect = .ok d
  speed : 1 ≤ s.speed
  scheme : s.scheme ∈ Scheme.all.map Prod.fst
  scale : 1 ≤ s.scale
  /-- Nothing but the enlarging can keep a screen from having a picture. -/
  picture : ∃ colours, ∀ enlarge (screen : Screen), screen.pictureBy enlarge s.scale s.scheme =
    if 1 < s.scale then enlarge (Picture.ofScreen screen colours) s.scale.toNat
    else .ok (Picture.ofScreen screen colours)

theorem valid_of {s : Settings} {d : Dialect} {colours : Scheme} (hdialect : s.namedDialect = .ok d)
    (hspeed : 1 ≤ s.speed) (hscheme : Scheme.named? s.scheme = some colours) (hscale : 1 ≤ s.scale) :
    s.Valid where
  dialect := ⟨d, hdialect⟩
  speed := hspeed
  scheme := by
    obtain ⟨before, later, hall, -⟩ := List.lookup_eq_some_iff.1 hscheme
    simp [hall]
  scale := hscale
  picture := ⟨colours, fun _ _ => Screen.pictureBy_of_named hscale hscheme⟩

theorem namedDialect_of_reads {s : Settings} {text : String}
    (h : Field.dialect.Reads text (Field.dialect.get s)) : ∃ d, s.namedDialect = .ok d := by
  obtain ⟨⟨d, hd⟩, htext⟩ := h
  exact ⟨d, (congrArg Dialect.named htext).trans hd⟩

theorem namedScheme_of_reads {s : Settings} {text : String}
    (h : Field.scheme.Reads text (Field.scheme.get s)) :
    ∃ colours, Scheme.named? s.scheme = some colours := by
  obtain ⟨⟨colours, hcolours⟩, htext⟩ := h
  exact ⟨colours, (congrArg Scheme.named? htext).trans hcolours⟩

/-- Every default is valid, and so is what is read. -/
theorem valid_ofEnvironment (env : Environment) : (ofEnvironment env).Valid := by
  have hdialect : ∃ d, (ofEnvironment env).namedDialect = .ok d := by
    rcases get_ofEnvironment_cases env .dialect with hdefault | ⟨text, -, -, hreads⟩
    · exact ⟨.cosmacVip, (congrArg Dialect.named hdefault).trans (by decide)⟩
    · exact namedDialect_of_reads hreads
  have hspeed : 1 ≤ (ofEnvironment env).speed := by
    rcases get_ofEnvironment_cases env .speed with hdefault | ⟨text, -, -, hreads⟩
    · exact (by decide : (1 : Int) ≤ 700).trans_eq hdefault.symm
    · exact hreads.2
  have hscheme : ∃ colours, Scheme.named? (ofEnvironment env).scheme = some colours := by
    rcases get_ofEnvironment_cases env .scheme with hdefault | ⟨text, -, -, hreads⟩
    · exact ⟨.dark, (congrArg Scheme.named? hdefault).trans (by decide)⟩
    · exact namedScheme_of_reads hreads
  have hscale : 1 ≤ (ofEnvironment env).scale := by
    rcases get_ofEnvironment_cases env .scale with hdefault | ⟨text, -, -, hreads⟩
    · exact (by decide : (1 : Int) ≤ 8).trans_eq hdefault.symm
    · exact hreads.2
  obtain ⟨d, hd⟩ := hdialect
  obtain ⟨colours, hcolours⟩ := hscheme
  exact valid_of hd hspeed hcolours hscale

theorem dialect_kept {env : Environment} {text : String} {d : Dialect}
    (hlookup : env.lookup "CHIP8_QUIRKS" = some text) (hne : text ≠ "")
    (h : Dialect.named text = .ok d) :
    (ofEnvironment env).dialect = text ∧ (ofEnvironment env).namedDialect = .ok d := by
  have hkept : (ofEnvironment env).dialect = text :=
    get_of_reads (f := .dialect) hlookup hne ⟨⟨d, h⟩, rfl⟩
  exact ⟨hkept, (congrArg Dialect.named hkept).trans h⟩

/-- **Settings from the environment are always valid.** Gathering them is never
refused, whatever the variables hold. A field depends on its own variable only: it has
the value that the text there stands for, and its default if there is no text or it
makes no sense. A text that names a dialect is kept as it is, and names that dialect in
the settings too. -/
theorem environment_givesSettings :
    (∀ env : Environment, (gather env).outcome {} = (.ok (), ofEnvironment env) ∧
      (ofEnvironment env).Valid) ∧
    (∀ (env env' : Environment) (f : Field), env.lookup f.source = env'.lookup f.source →
      f.get (ofEnvironment env) = f.get (ofEnvironment env')) ∧
    (∀ (env : Environment) (f : Field),
      (∀ text value, env.lookup f.source = some text → text ≠ "" → f.Reads text value →
        f.get (ofEnvironment env) = value) ∧
      ((∀ text value, env.lookup f.source = some text → text ≠ "" → ¬ f.Reads text value) →
        f.get (ofEnvironment env) = f.get {})) ∧
    ∀ (env : Environment) (text : String) (d : Dialect),
      env.lookup "CHIP8_QUIRKS" = some text → text ≠ "" → Dialect.named text = .ok d →
      (ofEnvironment env).dialect = text ∧ (ofEnvironment env).namedDialect = .ok d :=
  ⟨fun env => ⟨outcome_gather env, valid_ofEnvironment env⟩, fun _ _ _ => get_congr,
    fun _ _ => ⟨fun _ _ => get_of_reads, get_of_not_reads⟩, fun _ _ _ => dialect_kept⟩

/-- A dialect in an odd spelling, a speed below zero, a scale with a sign and an
underscore, and a variable without text. -/
def oddEnvironment : Environment :=
  [("CHIP8_QUIRKS", " Chip-48\t"), ("CHIP8_SPEED", "-5"), ("CHIP8_SCALE", "+1_0"),
    ("CHIP8_START_HALTED", "")]

theorem oddEnvironment_givesSettings :
    ((ofEnvironment oddEnvironment).dialect = " Chip-48\t" ∧
      (ofEnvironment oddEnvironment).namedDialect = .ok .modern) ∧
    (ofEnvironment oddEnvironment).scale = 10 ∧
    (ofEnvironment oddEnvironment).speed = 700 ∧
    (ofEnvironment oddEnvironment).startHalted = false ∧
    (ofEnvironment oddEnvironment).scale = (ofEnvironment [("CHIP8_SCALE", "+1_0")]).scale := by
  have hnegative : Text.IntegerLiteral.parse .decimal "-5" = .ok (-5) := by decide
  obtain ⟨-, hown, hfields, hkept⟩ := environment_givesSettings
  refine ⟨hkept oddEnvironment _ .modern rfl (by decide) (by decide),
    (hfields oddEnvironment .scale).1 "+1_0" (10 : Int) rfl (by decide) ⟨by decide, by decide⟩,
    (hfields oddEnvironment .speed).2 fun text value htext _ hreads => ?_,
    (hfields oddEnvironment .startHalted).2 fun text value htext hne _ => ?_,
    hown oddEnvironment [("CHIP8_SCALE", "+1_0")] .scale rfl⟩
  · obtain ⟨hparse, hpos⟩ := hreads
    obtain rfl : "-5" = text := Option.some.inj htext
    rw [hnegative] at hparse
    obtain rfl := Except.ok.inj hparse
    exact absurd hpos (by decide)
  · exact hne (Option.some.inj htext).symm

end Settings
end Chip8
