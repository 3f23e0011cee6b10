import ClusterUpgrade.Config.Reconcile
import ClusterUpgrade.Document.YamlReader
import ClusterUpgrade.Files.Basic
import ClusterUpgrade.Text.Blank

/-!
# Settings

Each of the five settings is chosen on its own, from the first source that has a valid value for it:
the command line, an environment variable that is not empty, the settings file, the default. A value
that is not valid is warned of, and the next source is asked. The reader of the settings file is
given.
-/

namespace ClusterUpgrade

/-! ## Values -/

/-- What can be set. -/
structure Settings where
  /-- The user who is recorded on new revisions. -/
  actor : String
  /-- The comment that is recorded on new revisions. -/
  changeComment : String
  downgradeScope : DowngradeScope
  logLevel : Log.Level
  jsonLogs : Bool
  deriving DecidableEq

namespace Settings

/-- The settings when nothing is set. -/
def standard : Settings where
  actor := "admin"
  changeComment := "Configuration created for Upgrade"
  downgradeScope := .allServices
  logLevel := .info
  jsonLogs := false

def document (s : Settings) : Document :=
  .record [("actor", .text s.actor), ("changeComment", .text s.changeComment),
    ("downgradeScope", .text (Named.name s.downgradeScope)),
    ("logLevel", .text (Named.name s.logLevel)), ("jsonLogs", .boolean s.jsonLogs)]

end Settings

/-- Settings given on the command line. -/
structure GivenSettings where
  actor : Option String
  changeComment : Option String
  downgradeScope : Option DowngradeScope
  logLevel : Option Log.Level
  jsonLogs : Option Bool

/-- Where a setting comes from. -/
inductive SettingSource where
  | commandLine
  | environment
  | file
  | standard
  deriving DecidableEq, Inhabited

def SettingSource.word : SettingSource → String
  | commandLine => "cli"
  | environment => "env"
  | file => "local_config"
  | standard => "default"

/-- What is passed over while settings are read. -/
inductive SettingsWarning where
  | noMapping (path : String)
  | unreadable (path : String) (detail : String)
  | invalidVariable (name value : String)
  | invalidEntry (key path : String)
  deriving DecidableEq

def SettingsWarning.message : SettingsWarning → String
  | noMapping path => "Ignoring " ++ path ++ ": expected a mapping"
  | unreadable path detail => "Ignoring " ++ path ++ ": " ++ detail
  | invalidVariable name value => "Ignoring " ++ name ++ "=" ++ value ++ ": invalid value"
  | invalidEntry key path => "Ignoring " ++ key ++ " in " ++ path ++ ": invalid value"

/-- Options of a reconciliation as a caller gives them; what is left out is what the settings are
when nothing is set. -/
structure GivenReconcileOptions where
  actor : Option String
  comment : Option String
  downgradeScope : Option DowngradeScope
  dryRun : Option Bool

def GivenReconcileOptions.effective (o : GivenReconcileOptions) : ReconcileOptions where
  actor := o.actor.getD Settings.standard.actor
  comment := o.comment.getD Settings.standard.changeComment
  downgradeScope := o.downgradeScope.getD Settings.standard.downgradeScope
  dryRun := o.dryRun.getD false

/-! ## One setting -/

/-- A setting: its name in the settings file, its environment variable, its default, and the
documents that are values of it. -/
structure Setting (α : Type) where
  key : String
  environmentName : String
  standard : α
  read? : Document → Option α

/-- A text that is not blank. -/
def filledText? (d : Document) : Option String := d.text?.filter fun s => !Text.allBlank s

/-- A boolean, or the word for one. -/
def flag? : Document → Option Bool
  | .boolean b => some b
  | .text "true" => some true
  | .text "false" => some false
  | _ => none

namespace Setting

/-- The user who is recorded on new revisions. -/
def actor : Setting String :=
  ⟨"actor", "UPGRADE_PLANNER_ACTOR", Settings.standard.actor, filledText?⟩

/-- The comment that is recorded on new revisions. -/
def changeComment : Setting String :=
  ⟨"changeComment", "UPGRADE_PLANNER_CHANGE_COMMENT", Settings.standard.changeComment, filledText?⟩

/-- Which services a downgrade across stacks reverts. -/
def downgradeScope : Setting DowngradeScope :=
  ⟨"downgradeScope", "UPGRADE_PLANNER_DOWNGRADE_SCOPE", Settings.standard.downgradeScope,
    fun d => d.text?.bind Named.ofName?⟩

/-- The least level of log events that is shown. -/
def logLevel : Setting Log.Level :=
  ⟨"logLevel", "UPGRADE_PLANNER_LOG_LEVEL", Settings.standard.logLevel,
    fun d => d.text?.bind Log.Level.parse?⟩

/-- Whether logs are written as JSON. -/
def jsonLogs : Setting Bool :=
  ⟨"jsonLogs", "UPGRADE_PLANNER_LOG_JSON", Settings.standard.jsonLogs, flag?⟩

end Setting

/-- The value of a setting, where it comes from, and what was passed over on the way. -/
structure Choice (α : Type) where
  value : α
  source : SettingSource
  warnings : List SettingsWarning
  deriving DecidableEq

/-- A settings file that was read. -/
structure SettingsFile where
  path : String
  fields : List (String × Document)

namespace Setting

variable {α : Type}

/-- The choice between the file and the default. -/
def fromFile (s : Setting α) (file : Option SettingsFile) : Choice α :=
  match file.bind fun f => (f.fields.lookup s.key).map (f.path, ·) with
  | none => ⟨s.standard, .standard, []⟩
  | some (path, d) =>
    match s.read? d with
    | some a => ⟨a, .file, []⟩
    | none => ⟨s.standard, .standard, [.invalidEntry s.key path]⟩

/-- The choice between the environment and the sources after it. -/
def fromEnvironment (s : Setting α) (environment : Record String) (file : Option SettingsFile) :
    Choice α :=
  match (environment.get? s.environmentName).filter (· ≠ "") with
  | none => s.fromFile file
  | some v =>
    match s.read? (.text v) with
    | some a => ⟨a, .environment, []⟩
    | none =>
      let c := s.fromFile file
      { c with warnings := .invalidVariable s.environmentName v :: c.warnings }

/-- The choice between all sources. -/
def choose (s : Setting α) (given : Option α) (environment : Record String)
    (file : Option SettingsFile) : Choice α :=
  match given with
  | some a => ⟨a, .commandLine, []⟩
  | none => s.fromEnvironment environment file

end Setting

/-! ## All settings -/

/-- The choice of every setting, the file that was read, and what was wrong with it. -/
structure Resolution where
  actor : Choice String
  changeComment : Choice String
  downgradeScope : Choice DowngradeScope
  logLevel : Choice Log.Level
  jsonLogs : Choice Bool
  file : Option SettingsFile
  fileWarnings : List SettingsWarning

namespace Resolution

def settings (r : Resolution) : Settings where
  actor := r.actor.value
  changeComment := r.changeComment.value
  downgradeScope := r.downgradeScope.value
  logLevel := r.logLevel.value
  jsonLogs := r.jsonLogs.value

/-- Where each setting comes from. -/
def sources (r : Resolution) : List (String × SettingSource) :=
  [(Setting.actor.key, r.actor.source), (Setting.changeComment.key, r.changeComment.source),
    (Setting.downgradeScope.key, r.downgradeScope.source),
    (Setting.logLevel.key, r.logLevel.source), (Setting.jsonLogs.key, r.jsonLogs.source)]

/-- Everything that was passed over. -/
def warnings (r : Resolution) : List SettingsWarning :=
  r.fileWarnings ++ r.actor.warnings ++ r.changeComment.warnings ++ r.downgradeScope.warnings ++
    r.logLevel.warnings ++ r.jsonLogs.warnings

end Resolution

/-- The settings file of a directory. -/
def localSettingsPath : String := ".upgrade-planner/config.yaml"

/-- What a settings file holds. An empty one holds nothing; one that is not there is passed over in
silence. -/
def Files.settingsFile (f : Files) (yaml : Document.YamlReader) (path : String) :
    Option SettingsFile × List SettingsWarning :=
  match f.find? path with
  | none => (none, [])
  | some .directory => (none, [.unreadable path "it is a directory"])
  | some (.file text) =>
    match yaml .resolved text with
    | .error detail => (none, [.unreadable path detail])
    | .ok .null => (some ⟨path, []⟩, [])
    | .ok (.record fields) => (some ⟨path, fields⟩, [])
    | .ok _ => (none, [.noMapping path])

/-- The settings from all sources, with what a settings file holds. -/
def Resolution.ofSources (given : GivenSettings) (environment : Record String)
    (file : Option SettingsFile × List SettingsWarning) : Resolution where
  actor := Setting.actor.choose given.actor environment file.1
  changeComment := Setting.changeComment.choose given.changeComment environment file.1
  downgradeScope := Setting.downgradeScope.choose given.downgradeScope environment file.1
  logLevel := Setting.logLevel.choose given.logLevel environment file.1
  jsonLogs := Setting.jsonLogs.choose given.jsonLogs environment file.1
  file := file.1
  fileWarnings := file.2

/-- The settings from all sources. The file is the one that is named, or that of a directory. -/
def Files.resolveSettings (f : Files) (yaml : Document.YamlReader) (given : GivenSettings)
    (environment : Record String) (directory path : Option String) : Resolution :=
  .ofSources given environment
    (f.settingsFile yaml (path.getD (f.absolute localSettingsPath directory)))

end ClusterUpgrade
