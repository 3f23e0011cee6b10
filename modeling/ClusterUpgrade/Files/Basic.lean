import ClusterUpgrade.Files.Path
import ClusterUpgrade.Text.Units

/-!
# Files

The files and directories that a command can see, and the directory that it works in. Directories
that lead to something are there without being listed.
-/

namespace ClusterUpgrade

/-- What stands at a place. -/
inductive FileNode where
  | directory
  | file (text : String)
  deriving DecidableEq

/-- Why a path leads to no directory, or to nothing at all. -/
inductive PathError where
  | missing
  /-- A file stands where a directory should. -/
  | notADirectory
  | nameTooLong
  deriving DecidableEq

def PathError.code : PathError → String
  | missing => "ENOENT"
  | notADirectory => "ENOTDIR"
  | nameTooLong => "ENAMETOOLONG"

/-- How many bytes a name may have. -/
def longestName : Nat := 255

/-- Some files, each under the names that lead to it from the root. -/
structure Files where
  workingDirectory : List String
  nodes : List (List String × FileNode)

namespace Files

/-- The files of some paths, read from the working directory; one without a text is a directory. -/
def ofPaths (workingDirectory : List String) (paths : List (String × Option String)) : Files where
  workingDirectory := workingDirectory
  nodes := paths.map fun e =>
    (Path.resolved workingDirectory e.1, e.2.elim FileNode.directory FileNode.file)

/-- What stands at a place. -/
def at? (f : Files) (place : List String) : Option FileNode :=
  match f.nodes.lookup place with
  | some n => some n
  | none =>
    if place.isPrefixOf f.workingDirectory ∨ f.nodes.any (place.isPrefixOf ·.1) then
      some .directory
    else none

/-- Follows names from a place; every name but the last has to be that of a directory. -/
def follow (f : Files) : (place : List String) → List String → Except PathError FileNode
  | place, [] => (f.at? place).elim (.error .missing) .ok
  | place, name :: rest =>
    match f.at? place with
    | none => .error .missing
    | some (.file _) => .error .notADirectory
    | some .directory =>
      if longestName < name.utf8ByteSize then .error .nameTooLong
      else f.follow (Path.step place name) rest

/-- What a path leads to from the working directory. -/
def find (f : Files) (path : String) : Except PathError FileNode :=
  if path = "" then .error .missing
  else f.follow (if Path.isAbsolute path then [] else f.workingDirectory) (Path.names path)

/-- What a path leads to from the working directory, if it leads to something. -/
def find? (f : Files) (path : String) : Option FileNode := (f.find path).toOption

/-- A path as it is reported: one that leads from the root as it is, any other resolved from a base
directory or the working directory. -/
def absolute (f : Files) (path : String) (base : Option String) : String :=
  if Path.isAbsolute path then path
  else
    let directory := base.elim f.workingDirectory (Path.resolved f.workingDirectory)
    Path.text (Path.resolved directory path)

/-- The names of the files in a directory, in order. -/
def fileNames (f : Files) (directory : List String) : List String :=
  (f.nodes.filterMap fun e =>
    match e.2 with
    | .file _ => if e.1.dropLast = directory then e.1.getLast? else none
    | .directory => none).mergeSort fun a b => !Text.before b a

end Files

end ClusterUpgrade
