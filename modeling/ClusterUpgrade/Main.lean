import Std.Time
import ClusterUpgrade.Command.Line
import ClusterUpgrade.Document.Yaml.Reader

/-!
# The program

Reads the arguments, the environment and the files that the arguments name, runs the command line,
and writes its lines.
-/

namespace ClusterUpgrade.Program

/-- The environment variables of the settings. -/
def settingVariables : List String :=
  [Setting.actor.environmentName, Setting.changeComment.environmentName,
    Setting.downgradeScope.environmentName, Setting.logLevel.environmentName,
    Setting.jsonLogs.environmentName]

/-- The variables that are set. -/
def environment : IO (Record String) := do
  let values ← settingVariables.mapM fun name => do return (name, ← IO.getEnv name)
  return Record.ofList (values.filterMap fun e => e.2.map (e.1, ·))

/-- The text of a file, if it can be read. -/
def text? (path : String) : IO (Option String) := do
  try return some (← IO.FS.readFile path) catch _ => return none

/-- What stands at a path: a file with its text, or a directory with its files. -/
def nodes (path : String) : IO (List (String × Option String)) := do
  if let some text ← text? path then return [(path, some text)]
  try
    let entries ← (← IO.FS.realPath path).readDir
    let files ← entries.toList.mapM fun e => do
      let file := path ++ "/" ++ e.fileName
      return (file, ← text? file)
    return (path, none) :: files
  catch _ => return []

/-- The time as log lines bear it. -/
def stamp : IO String := do
  let now ← Std.Time.Timestamp.now
  return (Std.Time.DateTime.ofTimestampWithZone now .UTC).format "uuuu-MM-dd'T'HH:mm:ss.SSS'Z'"

def write (l : ConsoleLine) : IO Unit :=
  match l.stream with
  | .out => IO.println l.text
  | _ => IO.eprintln l.text

end ClusterUpgrade.Program

open ClusterUpgrade in
/-- Runs the program. -/
def main (words : List String) : IO UInt32 := do
  let invocation := Invocation.ofWords words
  let directory := (Path.names (toString (← IO.currentDir))).filter (· ≠ "")
  let found ← invocation.paths.mapM Program.nodes
  let surroundings : Surroundings :=
    { files := Files.ofPaths directory found.flatten
      yaml := Document.Yaml.reader
      environment := ← Program.environment
      stamp := ← Program.stamp
      colour := false }
  let run := ProgramRun.ofInvocation surroundings invocation
  run.lines.forM Program.write
  return UInt32.ofNat run.exitCode
