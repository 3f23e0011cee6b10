import ClusterUpgrade.Direction
import ClusterUpgrade.Distinct
import ClusterUpgrade.Orchestration
import ClusterUpgrade.Record
import ClusterUpgrade.Stack

/-!
# Runs

A run is one upgrade or downgrade of a cluster: its direction, orchestration and scope, the version
that it is named after, the services that take part, and for each service the version that it comes
from and the version that it goes to. A run never changes; what planning finds out is kept
elsewhere.
-/

namespace ClusterUpgrade

/-- One upgrade or downgrade. -/
structure UpgradeRun where
  direction : Direction
  orchestration : Orchestration
  scope : Scope
  /-- The version of the run: its target on an upgrade, its source on a downgrade. -/
  repository : RepositoryVersion
  /-- The version that each service comes from. -/
  sources : Record RepositoryVersion
  /-- The version that each service goes to. -/
  targets : Record RepositoryVersion
  /-- The services that take part, in the order in which they are visited. -/
  services : List String
  nodup : services.Nodup

namespace UpgradeRun

/-- A run over services that may be named more than once. -/
def ofServices (direction : Direction) (orchestration : Orchestration) (scope : Scope)
    (repository : RepositoryVersion) (sources targets : Record RepositoryVersion)
    (services : List String) : UpgradeRun :=
  { direction, orchestration, scope, repository, sources, targets
    services := distinct services
    nodup := nodup_distinct services }

/-- Whether a service takes part. -/
def supports (run : UpgradeRun) (service : String) : Bool := run.services.contains service

/-- Whether hosts are worked on one after the other. -/
def isRolling (run : UpgradeRun) : Bool := run.orchestration = .rolling

end UpgradeRun

end ClusterUpgrade
