import ClusterUpgrade.Direction
import ClusterUpgrade.Document.Basic
import ClusterUpgrade.Orchestration

/-!
# Planning errors

Before anything is planned, a request has to name registered versions and lead to exactly one pack.
-/

namespace ClusterUpgrade

/-- Why a request leads to no plan. -/
inductive PlanningError where
  /-- No repository version of that name is registered. -/
  | versionNotFound (version : String)
  /-- Several packs fit; they are listed by name. -/
  | ambiguousPack (direction : Direction) (orchestration : Orchestration) (version : String)
      (packs : List String)
  /-- No pack fits. -/
  | noMatchingPack (direction : Direction) (orchestration : Orchestration) (version : String)
      (targetStack : String)
  deriving DecidableEq

namespace PlanningError

def code : PlanningError → String
  | versionNotFound _ => "REPOSITORY_VERSION_NOT_FOUND"
  | ambiguousPack .. => "AMBIGUOUS_PACK"
  | noMatchingPack .. => "NO_MATCHING_PACK"

def message : PlanningError → String
  | versionNotFound version => "Repository version " ++ version ++ " was not found"
  | ambiguousPack direction orchestration version _ =>
    "Unable to perform " ++ direction.form .plain ++ ". Found multiple upgrade packs for type " ++
      Named.name orchestration ++ " and target version " ++ version
  | noMatchingPack direction orchestration version _ =>
    "Unable to perform " ++ direction.form .plain ++ ". Could not locate " ++
      Named.name orchestration ++ " upgrade pack for version " ++ version

/-- What an error is about, by name. -/
def details : PlanningError → List (String × Document)
  | versionNotFound version => [("version", .text version)]
  | ambiguousPack _ orchestration version packs =>
    [("type", .text (Named.name orchestration)), ("version", .text version),
      ("packs", .texts packs)]
  | noMatchingPack _ orchestration version targetStack =>
    [("type", .text (Named.name orchestration)), ("version", .text version),
      ("targetStack", .text targetStack)]

end PlanningError

end ClusterUpgrade
