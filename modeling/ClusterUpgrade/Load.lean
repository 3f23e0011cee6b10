import ClusterUpgrade.Document.JsonReader
import ClusterUpgrade.Document.YamlReader
import ClusterUpgrade.Files.Basic
import ClusterUpgrade.Pack.Check
import ClusterUpgrade.Topology.Check

/-!
# Loading packs and topologies

A file named `.json` holds JSON, any other YAML, for which a reader is given. A directory of packs
is loaded file by file in the order of the names, and no two of its packs may have one name. Numbers
of a topology stay as they are written, so that the values of properties keep their form.
-/

namespace ClusterUpgrade

/-! ## Failures -/

/-- Why a pack or a topology cannot be loaded. -/
inductive LoadError where
  | notFound (path : String)
  | unreadable (path : String)
  | malformed (path detail : String)
  | invalidPack (source : String) (issues : List Issue)
  | invalidTopology (source : String) (issues : List Issue)
  /-- A file of a directory defines a pack that an earlier one has defined. -/
  | packTwice (file : String) (name : String) (earlier : String)

namespace LoadError

def code : LoadError → String
  | notFound _ => "FILE_NOT_FOUND"
  | unreadable _ => "FILE_NOT_FOUND"
  | malformed .. => "PARSE_ERROR"
  | _ => "INVALID_CONTENT"

/-- The issues of a document that is not valid. -/
def issues : LoadError → List Issue
  | invalidPack _ issues => issues
  | invalidTopology _ issues => issues
  | packTwice file name earlier => [.duplicatePack file name earlier]
  | _ => []

/-- How many errors a document has, in words. -/
def countText (issues : List Issue) : String :=
  toString (Issues.errors issues).length ++ " error(s)"

def message : LoadError → String
  | notFound path => "File not found: " ++ path
  | unreadable path => "Failed to read " ++ path ++ ": it is a directory"
  | malformed path detail => "Failed to parse " ++ path ++ ": " ++ detail
  | invalidPack source issues => "Invalid upgrade pack " ++ source ++ ": " ++ countText issues
  | invalidTopology source issues =>
    "Invalid cluster topology " ++ source ++ ": " ++ countText issues
  | packTwice _ name _ => "Upgrade pack \"" ++ name ++ "\" is defined twice"

end LoadError

/-! ## Documents -/

def Pack.ofDocument (source : String) (d : Document) : Except LoadError Pack :=
  let c := Pack.check d
  match c.value with
  | some p => .ok p
  | none => .error (.invalidPack source c.issues)

def Topology.ofDocument (source : String) (d : Document) : Except LoadError Topology :=
  let c := Topology.check d
  match c.value with
  | some t => .ok t
  | none => .error (.invalidTopology source c.issues)

namespace Files

variable (f : Files) (yaml : Document.YamlReader)

def document (style : Document.NumberStyle) (path : String) : Except LoadError Document :=
  match f.find? path with
  | none => .error (.notFound path)
  | some .directory => .error (.unreadable path)
  | some (.file text) =>
    let read := if Path.loweredExtension path = ".json" then
        (Document.Json.read text).mapError (·.message text)
      else yaml style text
    read.mapError (.malformed path)

/-- The pack of a file at a reported path. -/
def packAt (path : String) : Except LoadError Pack := do
  Pack.ofDocument path (← f.document yaml .resolved path)

def pack (path : String) (base : Option String) : Except LoadError Pack :=
  f.packAt yaml (f.absolute path base)

def topology (path : String) (base : Option String) : Except LoadError Topology := do
  let path := f.absolute path base
  Topology.ofDocument path (← f.document yaml .written path)

/-! ## Directories -/

def packExtensions : List String := [".yaml", ".yml", ".json"]

/-- The pack files of a directory at a reported path. -/
def packFiles (path : String) : List String :=
  let directory := Path.resolved f.workingDirectory path
  ((f.fileNames directory).filter fun name => Path.loweredExtension name ∈ packExtensions).map
    fun name => Path.text (directory ++ [name])

/-- Where a pack of a name is defined already. A name that every record has something under is taken
from the start. -/
def definedAt? (found : Record (Pack × String)) (name : String) : Option String :=
  (found.get? name).map Prod.snd <|>
    if Reserved.isInherited name then some (Reserved.memberText name) else none

/-- Adds the packs of some files to those that earlier files have defined. -/
def addPacks (found : Record (Pack × String)) :
    List String → Except LoadError (Record (Pack × String))
  | [] => .ok found
  | file :: rest => do
    let p ← f.packAt yaml file
    match definedAt? found p.name with
    | some earlier => throw (.packTwice file p.name earlier)
    | none => addPacks (found.insert p.name (p, file)) rest

/-- The packs of a directory at a reported path, by name. -/
def packsAt (path : String) : Except LoadError (Record Pack) :=
  (f.addPacks yaml Record.empty (f.packFiles path)).map (·.map Prod.fst)

/-- The packs of a directory, by name. -/
def packs (path : String) (base : Option String) :
    Except PathError (Except LoadError (Record Pack)) :=
  let path := f.absolute path base
  match f.find path with
  | .error e => .error e
  | .ok (.file _) => .error .notADirectory
  | .ok .directory => .ok (f.packsAt yaml path)

/-- The packs of a directory, or the single pack of a file, by name. -/
def packSource (path : String) (base : Option String) : Except LoadError (Record Pack) :=
  let path := f.absolute path base
  match f.find? path with
  | some .directory => f.packsAt yaml path
  | _ => (f.packAt yaml path).map fun p => Record.empty.insert p.name p

end Files

end ClusterUpgrade
