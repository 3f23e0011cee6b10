import ClusterUpgrade.Catalog
import ClusterUpgrade.Hosts
import ClusterUpgrade.PlanningError
import ClusterUpgrade.Reserved
import ClusterUpgrade.Store.Basic
import ClusterUpgrade.UpgradeRun

/-!
# Topologies

A topology describes a cluster well enough to plan and reconcile without it: its services with their
components and hosts, the registered repository versions, the current configuration of every type
and the defaults of stacks. `Topology.site` makes a cluster of it: the store, the host resolver and
the catalog that planning and reconciliation work on.
-/

namespace ClusterUpgrade

/-! ## The description -/

/-- A component of a service. -/
structure ComponentTopology where
  name : String
  displayName : Option String
  /-- Whether the component reports its own version. -/
  advertisesVersion : Bool
  placement : ComponentHosts
  deriving DecidableEq

/-- A service of the cluster. -/
structure ServiceTopology where
  name : String
  displayName : Option String
  /-- Whether the service has clients only. -/
  clientOnly : Bool
  /-- The version of the service, when it is not that of the cluster. -/
  version : Option String
  components : List ComponentTopology
  deriving DecidableEq

/-- The current configuration of a type. -/
structure ConfigTopology where
  type : String
  /-- The service that owns the type. -/
  service : String
  tag : String
  properties : Properties
  deriving DecidableEq

/-- The description of a cluster. -/
structure Topology where
  clusterName : String
  securityType : SecurityType
  stack : StackId
  namenodeHA : Bool
  /-- The version of every service that does not name its own. -/
  currentVersion : String
  repositoryVersions : List RepositoryVersion
  services : List ServiceTopology
  configurations : List ConfigTopology
  /-- Written stack id, then service, then configuration type. -/
  stackDefaults : Record (Record DefaultsByType)
  deriving DecidableEq

def ComponentTopology.document (c : ComponentTopology) : Document :=
  .ofOptional [("name", some (.text c.name)), ("hosts", some (.texts c.placement.hosts)),
    ("unhealthy", some (.texts c.placement.unhealthy)),
    ("advertiseVersion", some (.boolean c.advertisesVersion)),
    ("displayName", c.displayName.map .text), ("master", c.placement.master.map .text),
    ("secondary", c.placement.secondary.map .text)]

def ServiceTopology.document (s : ServiceTopology) : Document :=
  .ofOptional [("name", some (.text s.name)), ("clientOnly", some (.boolean s.clientOnly)),
    ("components", some (.list (s.components.map (·.document)))),
    ("displayName", s.displayName.map .text), ("version", s.version.map .text)]

def ConfigTopology.document (c : ConfigTopology) : Document :=
  .record [("type", .text c.type), ("service", .text c.service), ("tag", .text c.tag),
    ("properties", c.properties.document)]

namespace Topology

def document (t : Topology) : Document :=
  .record [("clusterName", .text t.clusterName),
    ("securityType", .text (Named.name t.securityType)), ("stack", t.stack.document),
    ("namenodeHA", .boolean t.namenodeHA), ("currentVersion", .text t.currentVersion),
    ("repositoryVersions", .list (t.repositoryVersions.map (·.document))),
    ("services", .list (t.services.map (·.document))),
    ("configurations", .list (t.configurations.map (·.document))),
    ("stackDefaults", .ofRecord (.ofRecord (·.document)) t.stackDefaults)]

/-! ## The cluster -/

/-- The version of a service. -/
def versionOf (t : Topology) (s : ServiceTopology) : String := s.version.getD t.currentVersion

/-- The state of a component whose hosts all have the version of its service. -/
def componentState (version : String) (c : ComponentTopology) : ComponentState where
  name := c.name
  desiredVersion := some version
  hosts := c.placement.hosts.map fun host => { host, state := .none, version }

def serviceState (t : Topology) (s : ServiceTopology) : ServiceState where
  name := s.name
  clientOnly := s.clientOnly
  desiredRepository := findVersion? t.repositoryVersions (t.versionOf s)
  components := s.components.map (componentState (t.versionOf s))

/-- The revision of a configuration; they are numbered from 1. -/
def revision (t : Topology) (c : ConfigTopology × Nat) : Revision where
  type := c.1.type
  service := c.1.service
  stack := t.stack.text
  tag := c.1.tag
  version := Number.ofNat (c.2 + 1)
  properties := c.1.properties
  actor := none
  comment := none

/-- The revisions of all configurations. -/
def revisions (t : Topology) : List Revision := t.configurations.zipIdx.map t.revision

/-- The store of the cluster. -/
def store (t : Topology) : Store where
  clusterName := t.clusterName
  securityType := t.securityType
  desiredStack := t.stack
  services := t.services.map t.serviceState
  revisions := t.revisions
  current := Record.ofList (t.revisions.map fun r => (r.type, r.version))
  defaults := t.stackDefaults
  componentRepositories := Record.empty

/-- The hosts of all components of services under whose name something can be written. -/
def hosts (t : Topology) : HostTable :=
  .ofServices ((t.services.filter fun s => Reserved.isWritable s.name).map fun s =>
    (s.name, s.components.map fun c => (c.name, c.placement))) t.namenodeHA

/-- The services as every stack of the catalog lists them. -/
def catalogServices (t : Topology) : List CatalogService :=
  t.services.map fun s =>
    { name := s.name, displayName := s.displayName
      components := s.components.map fun c => ⟨c.name, c.displayName, c.advertisesVersion⟩ }

/-- The catalog of the cluster: the stacks of all registered versions and that of the cluster. -/
def catalog (t : Topology) : Catalog :=
  Record.ofList
    ((t.repositoryVersions.map (·.stackId) ++ [t.stack]).map fun s => (s.text, t.catalogServices))

end Topology

/-- What planning and reconciliation work on. -/
structure Site where
  store : Store
  hosts : HostResolver
  catalog : StackMetadata

def Topology.site (t : Topology) : Site := ⟨t.store, t.hosts.resolver, t.catalog.metadata⟩

/-! ## Runs -/

/-- A request for a run over every service of a topology. -/
structure RunRequest where
  direction : Direction
  orchestration : Orchestration
  scope : Option Scope
  /-- The version that the cluster moves to. -/
  target : String
  /-- The version that the cluster moves from, when it is not that of each service. -/
  source : Option String

namespace Topology

/-- A registered version. -/
def version (t : Topology) (name : String) : Except PlanningError RepositoryVersion :=
  match findVersion? t.repositoryVersions name with
  | some v => .ok v
  | none => .error (.versionNotFound name)

/-- The version that each service comes from. -/
def sources (t : Topology) (request : RunRequest) :
    Except PlanningError (List (String × RepositoryVersion)) :=
  t.services.mapM fun s => do
    let v ← t.version (request.source.getD (t.versionOf s))
    return (s.name, v)

/-- The run of a request. The target is looked up first, then the source of each service, then that
of the cluster. A service under whose name nothing can be written takes part without versions. -/
def run (t : Topology) (request : RunRequest) : Except PlanningError UpgradeRun := do
  let target ← t.version request.target
  let sources ← t.sources request
  let source ← t.version (request.source.getD t.currentVersion)
  return .ofServices request.direction request.orchestration (request.scope.getD .complete)
    (if request.direction.isDowngrade then source else target)
    (Reserved.record sources) (Reserved.record (t.services.map fun s => (s.name, target)))
    (t.services.map (·.name))

end Topology

end ClusterUpgrade
