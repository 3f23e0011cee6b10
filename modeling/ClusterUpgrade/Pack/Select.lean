import ClusterUpgrade.Pack.Basic
import ClusterUpgrade.PlanningError
import ClusterUpgrade.Stack

/-!
# Choosing a pack

A request names a direction, an orchestration and versions. The version that decides is the one that
the cluster moves to, or, on a downgrade, the one that it moves from if that is known. A pack that
is preferred by name is taken as it is; otherwise exactly one pack has to lead to the stack of that
version with that orchestration. A preferred name that no pack has may still be found: then what
every record has under it is taken, and it is no pack.
-/

namespace ClusterUpgrade

/-- A request for a pack. -/
structure PackRequest where
  /-- The packs to choose from, by name. -/
  packs : Record Pack
  repositoryVersions : List RepositoryVersion
  direction : Direction
  orchestration : Orchestration
  /-- The version that the cluster moves to. -/
  target : String
  /-- The version that the cluster moves from. -/
  source : Option String
  /-- The name of the pack to take if there is one of that name. -/
  preferred : Option String

/-- What is taken for a pack. -/
inductive ChosenPack where
  | listed (pack : Pack)
  /-- What every record has under a name. -/
  | inherited (name : String)
  deriving DecidableEq

/-- The name that a chosen pack gives itself, if it has one. -/
def ChosenPack.name? : ChosenPack → Option String
  | listed pack => some pack.name
  | inherited name =>
    if Reserved.isFunction name then some (Reserved.functionName name) else none

namespace PackRequest

/-- The version that decides. -/
def version (r : PackRequest) : String :=
  if r.direction.isDowngrade then r.source.getD r.target else r.target

/-- Whether a pack leads to a stack with the orchestration of the request. -/
def fits (r : PackRequest) (stack : StackId) (p : Pack) : Bool :=
  p.targetStack = stack.text ∧ p.orchestration = r.orchestration

/-- The only pack that fits a registered version. -/
def fittingPack (r : PackRequest) (v : RepositoryVersion) : Except PlanningError Pack :=
  match r.packs.values.filter (r.fits v.stackId) with
  | [] => .error (.noMatchingPack r.direction r.orchestration r.version v.stackId.text)
  | [p] => .ok p
  | ps => .error (.ambiguousPack r.direction r.orchestration r.version (ps.map (·.name)))

/-- What is found under the preferred name. -/
def preferredPack? (r : PackRequest) : Option ChosenPack :=
  r.preferred.bind fun name =>
    (r.packs.get? name).map .listed <|>
      if Reserved.isInherited name then some (.inherited name) else none

/-- The pack of a request for a registered version. -/
def packFor (r : PackRequest) (v : RepositoryVersion) : Except PlanningError ChosenPack :=
  match r.preferredPack? with
  | some chosen => .ok chosen
  | none => (r.fittingPack v).map .listed

/-- The pack of a request and the version that decides. -/
def select (r : PackRequest) : Except PlanningError (ChosenPack × RepositoryVersion) :=
  match findVersion? r.repositoryVersions r.version with
  | none => .error (.versionNotFound r.version)
  | some v => (r.packFor v).map (·, v)

end PackRequest

end ClusterUpgrade
