import ClusterUpgrade.Catalog
import ClusterUpgrade.Config.Reconcile

/-!
# Moving to new versions

The transition of a run points every service that takes part, and each of its components, to the
target version of the service. The hosts of a component that reports its own version on the target
stack are marked as in progress; those of any other component are marked as not upgraded, with an
unknown version. A component that the catalog does not know counts as one that reports no version.

Versions and configurations may also move together, all or nothing.
-/

namespace ClusterUpgrade

/-- What the transition has done with a component. -/
structure ComponentTransition where
  service : String
  component : String
  version : String
  state : UpgradeState
  /-- The hosts on which something was written. -/
  hostsUpdated : List String
  deriving DecidableEq

def ComponentTransition.document (t : ComponentTransition) : Document :=
  .record [("service", .text t.service), ("component", .text t.component),
    ("version", .text t.version), ("upgradeState", .text (Named.name t.state)),
    ("hostsUpdated", .texts t.hostsUpdated)]

namespace Repositories

open Transition

/-- Whether a component reports its own version; an unknown component does not, and is warned of. -/
def advertises (catalog : StackMetadata) (stack : StackId) (service component : String) :
    Transition Bool :=
  match catalog.advertises stack service component with
  | .ok b => pure b
  | .error e => do
    say .warn ("Could not determine whether " ++ service ++ "/" ++ component ++
      " advertises a version") (Log.contextOf [("error", e.message)])
    return false

/-- Whether the version of a host has to be written. -/
def losesVersion (advertised : Bool) (h : HostState) : Bool :=
  !advertised && h.version != unknownVersion

def markHost (service component : String) (advertised : Bool) (state : UpgradeState)
    (h : HostState) : Transition Unit := do
  Operation.when (h.state ≠ state) (writing (·.setHostState service component h.host state))
  Operation.when (losesVersion advertised h)
    (writing (·.setHostVersion service component h.host unknownVersion))

/-- The hosts that are written: one for each change of state, and one for a lost version unless it
is named already. -/
def updatedHosts (hosts : List HostState) (advertised : Bool) (state : UpgradeState) :
    List String :=
  hosts.foldl
    (fun updated h =>
      let updated := if h.state ≠ state then updated ++ [h.host] else updated
      if losesVersion advertised h then addDistinct updated h.host else updated) []

def moveComponent (catalog : StackMetadata) (service : String) (target : RepositoryVersion)
    (c : ComponentState) : Transition ComponentTransition := do
  writing (·.setComponentRepository service c.name target)
  let advertised ← advertises catalog target.stackId service c.name
  let state : UpgradeState := if advertised then .inProgress else .none
  let _ ← Operation.each (markHost service c.name advertised state) c.hosts
  return { service, component := c.name, version := target.version, state
           hostsUpdated := updatedHosts c.hosts advertised state }

/-- Moves a service and its components to the target version of a run. -/
def moveService (run : UpgradeRun) (catalog : StackMetadata) (service : String) :
    Transition (List ComponentTransition) := do
  let target ← version run .target service
  writing (·.setServiceRepository service target)
  let components ← reading (·.componentsOf service)
  Operation.each (moveComponent catalog service target) components

/-- Moves the services of a run, without protection against a failure on the way. -/
def steps (run : UpgradeRun) (catalog : StackMetadata) : Transition (List ComponentTransition) := do
  let moved ← Operation.each (moveService run catalog) run.services
  return moved.flatten

end Repositories

/-- Moves the services of a run to their target versions, all or nothing. -/
def setDesiredRepositories (run : UpgradeRun) (catalog : StackMetadata) :
    Transition (List ComponentTransition) :=
  Operation.transaction .refused (Repositories.steps run catalog)

/-- Moves the services of a run to their target versions and reconciles their configurations, all or
nothing. -/
def updateCluster (run : UpgradeRun) (catalog : StackMetadata) (options : ReconcileOptions) :
    Transition (List ComponentTransition × List ServiceChange) :=
  Operation.transaction .refused do
    let components ← Repositories.steps run catalog
    let changes ← Reconcile.steps run options
    return (components, changes)

end ClusterUpgrade
