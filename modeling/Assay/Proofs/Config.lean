/-
Where a configuration takes its texts from. A text has several sources, in the order in
which they count, and what a source should supply is a text that is not blank: it is the
first of these that should be configured (`Supplied`). A model is the first text there is
instead, blank or not (`Held`). A key's variable is passed over when it is blank, but the
file's key is not.

So a configuration that comes about is usable exactly when some source supplies a key and
the first model there is is not blank, and a key that no source supplies is reported only
where the file holds none at all (`resolve_usable_iff`).
-/
import Assay.Config.Resolve

namespace Assay.Config

variable {arguments : Arguments} {defaults : Defaults} {file : String}
  {environment : Environment} {provider : Service.Provider} {config : Config}
  {sources : List (Option String)} {source : Option String} {text other : String}

-- ============================================================ blank texts

/-- Some character of a text is not blank. -/
def Filled (text : String) : Prop := ∃ c ∈ text.toList, Text.isBlank c = false

/-- What a source holds, if anything, is blank. -/
def Silent (source : Option String) : Prop := ∀ text, source = some text → ¬ Filled text

theorem filled_iff : Filled text ↔ (!Text.allBlank text.toList) = true := by
  simp [Filled, Text.allBlank]

theorem filter_eq_some_iff : source.filter (!Text.allBlank ·.toList) = some text
    ↔ source = some text ∧ Filled text := by
  rw [Option.filter_eq_some_iff, filled_iff]

theorem filter_eq_none_iff : source.filter (!Text.allBlank ·.toList) = none ↔ Silent source := by
  rw [Option.filter_eq_none_iff]
  exact forall₂_congr fun text _ => not_congr filled_iff.symm

-- ================================================================ sources

/-- The first text that sources hold, in their order, is this one. -/
inductive Held : List (Option String) → String → Prop where
  | here (text : String) (later : List (Option String)) : Held (some text :: later) text
  | later {later : List (Option String)} {text : String} (hlater : Held later text) :
      Held (none :: later) text

/-- The first text that sources hold and that is not blank is this one. -/
inductive Supplied : List (Option String) → String → Prop where
  | here {text : String} (hfilled : Filled text) (later : List (Option String)) :
      Supplied (some text :: later) text
  | later {source : Option String} {later : List (Option String)} {text : String}
      (hsilent : Silent source) (hlater : Supplied later text) : Supplied (source :: later) text

theorem Supplied.filled (hsupplied : Supplied sources text) : Filled text := by
  induction hsupplied with
  | here hfilled _ => exact hfilled
  | later _ _ ih => exact ih

theorem Supplied.unique (hsupplied : Supplied sources text) (hother : Supplied sources other) :
    text = other := by
  induction hsupplied with
  | here hfilled _ =>
      cases hother with
      | here _ _ => rfl
      | later hsilent _ => exact absurd hfilled (hsilent _ rfl)
  | later hsilent _ ih =>
      cases hother with
      | here hfilled _ => exact absurd hfilled (hsilent _ rfl)
      | later _ hlater => exact ih hlater

theorem Held.unique (hheld : Held sources text) (hother : Held sources other) :
    text = other := by
  induction hheld with
  | here => cases hother with | here => rfl
  | later _ ih => cases hother with | later hlater => exact ih hlater

/-- The first text is what is supplied, if it is not blank. -/
theorem Held.supplied_iff (hheld : Held sources text) : Supplied sources text ↔ Filled text := by
  refine ⟨Supplied.filled, fun hfilled => ?_⟩
  induction hheld with
  | here _ later => exact .here hfilled later
  | later _ ih => exact .later nofun (ih hfilled)

/-- Where the key of a service is looked for. -/
def keySources (provider : Service.Provider) (environment : Environment) (defaults : Defaults) :
    List (Option String) :=
  [environment provider.keyVariable, defaults.key]

/-- Where a model is looked for. -/
def modelSources (provider : Service.Provider) (arguments : Arguments) (environment : Environment)
    (defaults : Defaults) : List (Option String) :=
  [arguments.model, environment modelVariable, defaults.model, some provider.defaultModel]

/-- The model is the first one there is. -/
theorem held_modelOf (provider : Service.Provider) (arguments : Arguments)
    (environment : Environment) (defaults : Defaults) :
    Held (modelSources provider arguments environment defaults)
      (modelOf provider arguments environment defaults) := by
  unfold modelSources modelOf
  cases arguments.model with
  | some model => exact .here model _
  | none =>
      refine .later ?_
      cases environment modelVariable with
      | some model => exact .here model _
      | none =>
          refine .later ?_
          cases defaults.model with
          | some model => exact .here model _
          | none => exact .later (.here _ _)

/-- The key that sources supply is found. -/
theorem keyOf_of_supplied {key : String}
    (hkey : Supplied (keySources provider environment defaults) key) :
    keyOf provider environment defaults file = .ok key := by
  unfold keyOf
  unfold keySources at hkey
  generalize environment provider.keyVariable = exported at hkey ⊢
  cases hkey with
  | here hfilled _ => rw [filter_eq_some_iff.mpr ⟨rfl, hfilled⟩, Option.some_or]
  | later hsilent hlater =>
      rw [filter_eq_none_iff.mpr hsilent, Option.none_or]
      generalize defaults.key = stored at hlater ⊢
      cases hlater with
      | here _ _ => rfl
      | later _ hnone => cases hnone

/-- Where sources supply no key, the file's is taken as it is. -/
theorem keyOf_of_not_supplied (file : String)
    (hnone : ∀ key, ¬ Supplied (keySources provider environment defaults) key) :
    keyOf provider environment defaults file
      = match defaults.key with
        | some key => .ok key
        | none => .error (.missingKey provider file) := by
  have hsilent : Silent (environment provider.keyVariable) := fun key hkey hfilled => by
    refine hnone key ?_
    unfold keySources
    rw [hkey]
    exact .here hfilled _
  cases hstored : defaults.key <;>
    simp only [keyOf, filter_eq_none_iff.mpr hsilent, hstored, Option.none_or]

-- ============================================================= resolution

theorem bind_eq_ok {ε α β : Type} {first : Except ε α} {next : α → Except ε β} {answer : β}
    (hbind : (first >>= next) = .ok answer) :
    ∃ found, first = .ok found ∧ next found = .ok answer := by
  cases first with
  | error fault => cases hbind
  | ok found => exact ⟨found, rfl, hbind⟩

theorem required_eq_ok {setting : Setting} (hrequired : required setting source = .ok text) :
    source = some text := by
  unfold required at hrequired
  split at hrequired
  · rw [Except.ok.inj hrequired]
  · cases hrequired

/-- What has to be given is given, and a service is chosen. -/
structure Complete (arguments : Arguments) (defaults : Defaults) (provider : Service.Provider) :
    Prop where
  repository : ∃ path, arguments.repository = some path
  file : ∃ path, arguments.file = some path
  function : ∃ name, arguments.function = some name ∧ Filled name
  provider : providerOf arguments defaults = .ok provider

/-- Where everything else is given, it depends on the key whether there is a
configuration. -/
theorem resolve_of_complete (file : String) (environment : Environment)
    (hcomplete : Complete arguments defaults provider) :
    (∀ error, keyOf provider environment defaults file = .error error →
      resolve arguments defaults file environment = .error error)
    ∧ ∀ key, keyOf provider environment defaults file = .ok key →
      ∃ config, resolve arguments defaults file environment = .ok config
        ∧ config.account.key = key := by
  obtain ⟨repository, hrepository⟩ := hcomplete.repository
  obtain ⟨path, hpath⟩ := hcomplete.file
  obtain ⟨name, hname, hfilled⟩ := hcomplete.function
  have hfunction := filter_eq_some_iff.mpr ⟨hname, hfilled⟩
  simp only [resolve, required, bind, Except.bind, hrepository, hpath, hfunction,
    hcomplete.provider]
  constructor
  · intro error hkey
    rw [hkey]
  · intro key hkey
    rw [hkey]
    exact ⟨_, rfl, rfl⟩

/-- What a configuration says of what it was made from. -/
theorem resolve_eq_ok (hresolve : resolve arguments defaults file environment = .ok config) :
    Filled config.function
      ∧ providerOf arguments defaults = .ok config.account.provider
      ∧ keyOf config.account.provider environment defaults file = .ok config.account.key
      ∧ config.account.model
        = modelOf config.account.provider arguments environment defaults := by
  unfold resolve at hresolve
  obtain ⟨repository, -, hresolve⟩ := bind_eq_ok hresolve
  obtain ⟨path, -, hresolve⟩ := bind_eq_ok hresolve
  obtain ⟨function, hfunction, hresolve⟩ := bind_eq_ok hresolve
  obtain ⟨provider, hprovider, hresolve⟩ := bind_eq_ok hresolve
  obtain ⟨key, hkey, hresolve⟩ := bind_eq_ok hresolve
  obtain rfl := Except.ok.inj hresolve
  exact ⟨(filter_eq_some_iff.mp (required_eq_ok hfunction)).2, hprovider, hkey, rfl⟩

/-- A configuration that a service can be asked with: the function has a name, and the
key and the model are what their sources supply. -/
structure Usable (arguments : Arguments) (defaults : Defaults) (environment : Environment)
    (config : Config) : Prop where
  function : Filled config.function
  key : Supplied (keySources config.account.provider environment defaults) config.account.key
  model : Supplied (modelSources config.account.provider arguments environment defaults)
    config.account.model

/-- The function of a configuration has a name. The configuration is usable exactly when
some source supplies a key and the first model that a source holds is not blank. Where no
source supplies a key, this is reported exactly when the file holds none: a blank one is
configured. -/
theorem resolve_usable_iff (arguments : Arguments) (defaults : Defaults) (file : String)
    (environment : Environment) :
    (∀ config, resolve arguments defaults file environment = .ok config →
      Filled config.function
        ∧ providerOf arguments defaults = .ok config.account.provider
        ∧ (Usable arguments defaults environment config
          ↔ (∃ key, Supplied (keySources config.account.provider environment defaults) key)
            ∧ ∀ model, Held (modelSources config.account.provider arguments environment defaults)
              model → Filled model))
    ∧ ∀ provider, Complete arguments defaults provider →
      (∀ key, ¬ Supplied (keySources provider environment defaults) key) →
      (resolve arguments defaults file environment = .error (.missingKey provider file)
          ↔ defaults.key = none)
        ∧ ∀ key, defaults.key = some key →
          ∃ config, resolve arguments defaults file environment = .ok config
            ∧ config.account.key = key := by
  constructor
  · intro config hresolve
    obtain ⟨hfunction, hprovider, hkey, hmodel⟩ := resolve_eq_ok hresolve
    have hheld := held_modelOf config.account.provider arguments environment defaults
    rw [← hmodel] at hheld
    refine ⟨hfunction, hprovider, ⟨fun usable => ⟨⟨_, usable.key⟩, fun model hmodel => ?_⟩, ?_⟩⟩
    · rw [hmodel.unique hheld]
      exact usable.model.filled
    · rintro ⟨⟨key, hsupplied⟩, hfilled⟩
      have hsame := (keyOf_of_supplied hsupplied).symm.trans hkey
      rw [Except.ok.inj hsame] at hsupplied
      exact ⟨hfunction, hsupplied, hheld.supplied_iff.mpr (hfilled _ hheld)⟩
  · intro provider hcomplete hnone
    obtain ⟨hfails, hsucceeds⟩ := resolve_of_complete file environment hcomplete
    have hkey := keyOf_of_not_supplied file hnone
    cases hstored : defaults.key with
    | none =>
        rw [hstored] at hkey
        exact ⟨iff_of_true (hfails _ hkey) rfl, nofun⟩
    | some key =>
        rw [hstored] at hkey
        obtain ⟨config, hresolve, hsame⟩ := hsucceeds key hkey
        refine ⟨iff_of_false ?_ nofun, ?_⟩
        · rw [hresolve]
          exact nofun
        · intro other hother
          obtain rfl := Option.some.inj hother
          exact ⟨config, hresolve, hsame⟩

/-- A command line with what has to be given. -/
def asked : Arguments := .ofGiven
  ⟨[(.repository, "/repo".toList), (.file, "calc.go".toList), (.function, "Add".toList)], []⟩

/-- A blank key in the file is configured, and so is a blank model, though the environment
names another. -/
theorem resolve_blank :
    (∃ config, resolve asked { Defaults.none with key := some "  " } "config.toml" (fun _ => none)
        = .ok config ∧ config.account.key = "  " ∧ ¬ Filled config.account.key)
      ∧ ∃ config, resolve { asked with model := some "" } Defaults.none "config.toml" some
        = .ok config ∧ config.account.model = "" ∧ ¬ Filled config.account.model :=
  ⟨⟨_, rfl, rfl, fun hfilled => absurd (filled_iff.mp hfilled) (by decide)⟩,
    ⟨_, rfl, rfl, fun hfilled => absurd (filled_iff.mp hfilled) (by decide)⟩⟩

/-- With the variables of the environment set to their own names there is a usable
configuration; with none set and no file, the key is missed. -/
theorem resolve_usable_iff_asked :
    (∃ config, resolve asked Defaults.none "config.toml" some = .ok config
        ∧ config.account.key = "OPENAI_API_KEY" ∧ config.account.model = modelVariable
        ∧ Usable asked Defaults.none some config)
      ∧ resolve asked Defaults.none "config.toml" (fun _ => none)
        = .error (.missingKey .openAI "config.toml") := by
  have hkey : Filled "OPENAI_API_KEY" := ⟨'O', by decide, by decide⟩
  have hmodel : Filled modelVariable := ⟨'G', by decide, by decide⟩
  have hname : Filled "Add" := ⟨'A', by decide, by decide⟩
  constructor
  · obtain ⟨hresolve, -⟩ := resolve_usable_iff asked Defaults.none "config.toml" some
    refine ⟨_, rfl, rfl, rfl, ((hresolve _ rfl).2.2).mpr ⟨⟨_, .here hkey _⟩, fun model hheld => ?_⟩⟩
    rw [hheld.unique (.later (.here modelVariable _))]
    exact hmodel
  · obtain ⟨-, hmissed⟩ := resolve_usable_iff asked Defaults.none "config.toml" (fun _ => none)
    have hcomplete : Complete asked Defaults.none .openAI :=
      ⟨⟨_, rfl⟩, ⟨_, rfl⟩, ⟨_, rfl, hname⟩, rfl⟩
    refine ((hmissed .openAI hcomplete fun key hsupplied => ?_).1).mpr rfl
    cases hsupplied with
    | later _ hlater =>
        cases hlater with
        | later _ hnone => cases hnone

end Assay.Config
