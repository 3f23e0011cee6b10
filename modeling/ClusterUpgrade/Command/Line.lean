import ClusterUpgrade.Command.Arguments
import ClusterUpgrade.Command.Plan
import ClusterUpgrade.Command.Reconcile
import ClusterUpgrade.Log.Layout

/-!
# The command line

The arguments name one of two commands. Options of the program may stand anywhere; a command reads
what they leave. A sound command line resolves the settings and runs its command; what the command
emits becomes lines of the console, and its result decides the exit code.
-/

namespace ClusterUpgrade

/-- Options that every command has. -/
structure GlobalOptions where
  json : Bool
  verbose : Bool
  actor : Option String
  /-- The settings file to read instead of the local one. -/
  config : Option String

/-- What a command line asks for. -/
inductive Invocation where
  | version
  /-- The usage text, which may stand for a missing command. -/
  | usage (missing : Bool)
  | failed (error : ArgumentError)
  | plan (globals : GlobalOptions) (options : PlanOptions)
  | reconcile (globals : GlobalOptions) (request : ReconcileRequest)

namespace Invocation

/-! ## Options -/

def programOptions : List OptionSpec :=
  [⟨"--version", some "-V", none, [], false⟩, .flag "--json",
    ⟨"--verbose", some "-v", none, [], false⟩, .valued "--actor" "<name>",
    .valued "--config" "<file>"]

/-- The names of options that a command line can hold: those of a command and those of the
program. -/
def optionNames (options : List OptionSpec) : List String :=
  "--help" :: (options ++ programOptions).map (·.long)

def directionWords : List String := (Named.all : List Direction).map (·.form .plain)

def directionOption : OptionSpec :=
  { OptionSpec.valued "--direction" "<direction>" with choices := directionWords }

def planOptions : List OptionSpec :=
  [{ OptionSpec.valued "--pack" "<path>" with required := true },
    { OptionSpec.valued "--cluster" "<file>" with required := true },
    directionOption,
    { OptionSpec.valued "--target" "<version>" with required := true },
    .valued "--source" "<version>",
    { OptionSpec.valued "--type" "<type>" with choices := Named.names Orchestration },
    { OptionSpec.valued "--scope" "<scope>" with choices := Named.names Scope },
    .valued "--pack-name" "<name>"]

def reconcileOptions : List OptionSpec :=
  [{ OptionSpec.valued "--cluster" "<file>" with required := true },
    directionOption,
    { OptionSpec.valued "--target" "<version>" with required := true },
    .valued "--source" "<version>",
    .flag "--dry-run",
    { OptionSpec.valued "--downgrade-scope" "<scope>" with choices := Named.names DowngradeScope }]

/-! ## Reading a command line -/

/-- The options of the program, as they are given. -/
def globals (a : Arguments) : GlobalOptions where
  json := a.has "--json"
  verbose := a.has "--verbose"
  actor := a.value? "--actor"
  config := a.value? "--config"

/-- The direction, an upgrade unless something else is given. -/
def directionOf (a : Arguments) : Direction :=
  ((Named.all : List Direction).find? fun d => a.value? "--direction" = some (d.form .plain)).getD
    .upgrade

def planOf (a : Arguments) : PlanOptions where
  pack := (a.value? "--pack").getD ""
  cluster := (a.value? "--cluster").getD ""
  direction := directionOf a
  target := (a.value? "--target").getD ""
  source := a.value? "--source"
  orchestration := (a.value? "--type").bind Named.ofName?
  scope := (a.value? "--scope").bind Named.ofName?
  packName := a.value? "--pack-name"

def reconcileOf (a : Arguments) : ReconcileRequest where
  cluster := (a.value? "--cluster").getD ""
  direction := directionOf a
  target := (a.value? "--target").getD ""
  source := a.value? "--source"
  dryRun := a.has "--dry-run"
  downgradeScope := (a.value? "--downgrade-scope").bind Named.ofName?

/-- Whether the usage text is asked for. -/
def asksForUsage (words : List String) : Bool := words.any fun w => w = "-h" ∨ w = "--help"

/-- Reads what is left for a command. -/
def ofCommand (options : List OptionSpec) (left : List String) (make : Arguments → Invocation) :
    Invocation :=
  let a := Arguments.read options left
  match a.error with
  | some e => .failed e
  | none =>
    if asksForUsage a.left then .usage false
    else
      match Arguments.firstMissing? options a, a.left with
      | some e, _ => .failed e
      | none, word :: _ => .failed (.unknownOption word (optionNames options))
      | none, [] => make a

/-- What is asked for without a known command. -/
def withoutCommand (a : Arguments) : Invocation :=
  if asksForUsage a.left then .usage false
  else
    match a.operands, a.left with
    | word :: _, _ => .failed (.unknownCommand word ["plan", "reconcile-configs", "help"])
    | [], word :: _ => .failed (.unknownOption word (optionNames []))
    | [], [] => .usage true

/-- What a command line asks for. -/
def ofWords (words : List String) : Invocation :=
  let a := Arguments.read programOptions words
  if a.has "--version" then .version
  else
    match a.error, a.operands with
    | some e, _ => .failed e
    | none, "plan" :: _ => ofCommand planOptions a.left fun b => .plan (globals a) (planOf b)
    | none, "reconcile-configs" :: _ =>
      ofCommand reconcileOptions a.left fun b => .reconcile (globals a) (reconcileOf b)
    | none, "help" :: _ => .usage false
    | none, _ => withoutCommand a

/-- The files and directories that an invocation reads. -/
def paths : Invocation → List String
  | plan g o => [g.config.getD localSettingsPath, o.pack, o.cluster]
  | reconcile g r => [g.config.getD localSettingsPath, r.cluster]
  | _ => []

end Invocation

/-! ## Running a command line -/

def programVersion : String := "0.1.0"

/-- The usage text. -/
def usageText : String :=
  Text.joined "\n"
    (["Usage: upgrade-planner [options] <command>", "", "Options:"] ++
      Invocation.programOptions.map (fun o => "  " ++ o.text) ++
      ["", "Commands:", "  plan", "  reconcile-configs"])

/-- What a program run writes and returns. -/
structure ProgramRun where
  lines : List ConsoleLine
  exitCode : Nat

/-- What surrounds a program run. -/
structure Surroundings where
  files : Files
  /-- What reads YAML files. -/
  yaml : Document.YamlReader
  environment : Record String
  /-- The time that log lines bear. -/
  stamp : String
  /-- Whether lines are styled. -/
  colour : Bool

namespace ProgramRun

/-- The line of a log event, if it is shown. -/
def eventLine? (layout : Log.Layout) (stamp : String) (e : Log.Event) : Option ConsoleLine :=
  if layout.shows e.level then
    some ⟨if e.level = .warn then .warn else .err, layout.write stamp e⟩
  else none

def emitted (layout : Log.Layout) (stamp : String) (emissions : List Emission) :
    List ConsoleLine :=
  emissions.filterMap fun
    | .line l => some l
    | .event e => eventLine? layout stamp e

/-- The layout of a run's log. -/
def layout (verbose : Bool) (s : Settings) : Log.Layout :=
  { Log.Layout.standard with least := if verbose then .debug else s.logLevel, json := s.jsonLogs }

/-- The lines that tell where the settings come from. -/
def settingsLines (colour verbose : Bool) (r : Resolution) : List ConsoleLine :=
  r.warnings.map (fun w => Console.warn colour w.message) ++
    if verbose then
      Console.verbose colour ("Settings resolved from: " ++
        Text.joined ", " (r.sources.map fun e => e.1 ++ "=" ++ e.2.word)) ::
        r.file.toList.map fun f => Console.verbose colour ("Config file: " ++ f.path)
    else []

/-- The lines of a result: JSON always shows it, a text only if the command has failed. -/
def resultLines (c : CommandContext) (r : CommandResult) : List ConsoleLine :=
  match c.format with
  | .json => [Console.json r.document]
  | .human => if r.success then [] else Console.result c.colour r

def errorLines (colour : Bool) (label : String) (e : CommandError) : List ConsoleLine :=
  Console.error colour (label ++ " failed: " ++ e.message) ::
    if e.issues.isEmpty then [] else [Console.line (Issues.text e.issues)]

def ofCommand (s : Surroundings) (g : GlobalOptions) (label : String)
    (command : CommandContext → Command CommandResult) : ProgramRun :=
  let given : GivenSettings := ⟨g.actor, none, none, none, none⟩
  let resolution := s.files.resolveSettings s.yaml given s.environment none g.config
  let context : CommandContext :=
    { files := s.files, yaml := s.yaml, settings := resolution.settings
      format := if g.json then .json else .human, verbose := g.verbose, colour := s.colour }
  let c := command context
  let before := settingsLines s.colour g.verbose resolution ++
    emitted (layout g.verbose resolution.settings) s.stamp c.emissions
  match c.result with
  | .ok r => ⟨before ++ resultLines context r, if r.success then 0 else 1⟩
  | .error e => ⟨before ++ errorLines s.colour label e, 1⟩

def ofInvocation (s : Surroundings) : Invocation → ProgramRun
  | .version => ⟨[Console.line programVersion], 0⟩
  | .usage missing => ⟨[⟨if missing then .err else .out, usageText⟩], if missing then 1 else 0⟩
  | .failed e => ⟨[⟨.err, e.message⟩], 1⟩
  | .plan g o => ofCommand s g "Plan" (Command.plan · o)
  | .reconcile g r => ofCommand s g "Reconcile" (Command.reconcile · r)

end ProgramRun

end ClusterUpgrade
