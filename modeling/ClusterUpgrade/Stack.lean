/-!
# Stacks and repository versions

A stack id is written `NAME-VERSION`. The version is what follows the last dash, so a name may hold
dashes and a version may not.
-/

namespace ClusterUpgrade

/-- A software stack in one version. -/
structure StackId where
  stackName : String
  stackVersion : String
  deriving DecidableEq, Inhabited

/-- A registered build and the stack that it belongs to. -/
structure RepositoryVersion where
  version : String
  stackId : StackId
  deriving DecidableEq, Inhabited

namespace StackId

/-- The written form of a stack id. -/
def text (id : StackId) : String := id.stackName ++ "-" ++ id.stackVersion

/-- The text before the last dash and the text after it. -/
def splitLastDash : List Char → Option (List Char × List Char)
  | [] => none
  | c :: rest =>
    match splitLastDash rest with
    | some (name, version) => some (c :: name, version)
    | none => if c = '-' then some ([], rest) else none

/-- The stack id of a written form with a name and a version that are not empty. -/
def parse? (s : String) : Option StackId :=
  match splitLastDash s.toList with
  | some (c :: name, d :: version) =>
    some ⟨String.ofList (c :: name), String.ofList (d :: version)⟩
  | _ => none

end StackId

/-- The registered version of that name; of several the first. -/
def findVersion? (versions : List RepositoryVersion) (version : String) :
    Option RepositoryVersion :=
  versions.find? (·.version = version)

end ClusterUpgrade
