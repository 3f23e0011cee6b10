import ClusterUpgrade.Document.Basic
import ClusterUpgrade.Number.Order
import ClusterUpgrade.Orchestration
import ClusterUpgrade.Stack

/-!
# The configuration store

The store holds what is known of a cluster: its services with their components and hosts, every
configuration revision ever made, which revision of each configuration type is current, the defaults
of each stack, and the repository versions that are desired.
-/

namespace ClusterUpgrade

/-! ## Configurations -/

/-- Property name to value. -/
abbrev Properties := Record String

/-- Default values; a null default is a property that the stack does not ship. -/
abbrev Defaults := Record (Option String)

/-- Defaults of a service by configuration type. -/
abbrev DefaultsByType := Record Defaults

abbrev PropertiesByType := Record Properties

def Properties.document (p : Properties) : Document := .ofRecord .text p

def PropertiesByType.document (p : PropertiesByType) : Document :=
  .ofRecord Properties.document p

def DefaultsByType.document (d : DefaultsByType) : Document :=
  .ofRecord (.ofRecord fun v => v.elim .null .text) d

/-- A current configuration as it is read from the store. -/
structure LiveConfig where
  type : String
  tag : String
  properties : Properties
  deriving DecidableEq

def LiveConfig.document (c : LiveConfig) : Document :=
  .record [("type", .text c.type), ("tag", .text c.tag), ("properties", c.properties.document)]

/-- A configuration revision. Those that the program has made name an actor. -/
structure Revision where
  type : String
  service : String
  /-- The written id of the stack that the revision belongs to. -/
  stack : String
  tag : String
  /-- Later revisions have higher versions. -/
  version : Number
  properties : Properties
  actor : Option String
  comment : Option String
  deriving DecidableEq

def Revision.document (r : Revision) : Document :=
  .ofOptional [("type", some (.text r.type)), ("serviceName", some (.text r.service)),
    ("stack", some (.text r.stack)), ("tag", some (.text r.tag)),
    ("version", some (.number r.version)), ("properties", some r.properties.document),
    ("actor", r.actor.map .text), ("comment", r.comment.map .text)]

/-! ## Services -/

/-- How far the upgrade of a component on a host has come. -/
inductive UpgradeState where
  | none
  | inProgress
  | complete
  | failed
  deriving DecidableEq, Inhabited

instance : Named UpgradeState where
  all := [.none, .inProgress, .complete, .failed]
  name
    | .none => "NONE"
    | .inProgress => "IN_PROGRESS"
    | .complete => "COMPLETE"
    | .failed => "FAILED"

/-- The version of a component that reports none. -/
def unknownVersion : String := "UNKNOWN"

/-- A component on a host. -/
structure HostState where
  host : String
  state : UpgradeState
  version : String
  deriving DecidableEq

/-- A component of a service. -/
structure ComponentState where
  name : String
  desiredVersion : Option String
  hosts : List HostState
  deriving DecidableEq

/-- A service of the cluster. -/
structure ServiceState where
  name : String
  /-- Whether the service has clients only and nothing to restart. -/
  clientOnly : Bool
  desiredRepository : Option RepositoryVersion
  components : List ComponentState
  deriving DecidableEq

def StackId.document (s : StackId) : Document :=
  .record [("stackName", .text s.stackName), ("stackVersion", .text s.stackVersion)]

def RepositoryVersion.document (v : RepositoryVersion) : Document :=
  .record [("version", .text v.version), ("stackId", v.stackId.document)]

def HostState.document (h : HostState) : Document :=
  .record [("hostName", .text h.host), ("upgradeState", .text (Named.name h.state)),
    ("version", .text h.version)]

def ComponentState.document (c : ComponentState) : Document :=
  .ofOptional [("name", some (.text c.name)), ("desiredVersion", c.desiredVersion.map .text),
    ("hosts", some (.list (c.hosts.map (·.document))))]

def ServiceState.document (s : ServiceState) : Document :=
  .ofOptional [("name", some (.text s.name)), ("clientOnly", some (.boolean s.clientOnly)),
    ("desiredRepository", s.desiredRepository.map (·.document)),
    ("components", some (.list (s.components.map (·.document))))]

/-! ## The store -/

/-- Everything that is known of a cluster. -/
structure Store where
  clusterName : String
  securityType : SecurityType
  desiredStack : StackId
  services : List ServiceState
  /-- Every revision ever stored, oldest first. -/
  revisions : List Revision
  /-- Configuration type to the version of its current revision. -/
  current : Record Number
  /-- Written stack id, then service, then configuration type. -/
  defaults : Record (Record DefaultsByType)
  /-- Service, then component. -/
  componentRepositories : Record (Record RepositoryVersion)
  /-- The text of a function that has come among the component repositories. No document shows it,
  and a store that has one cannot be copied. -/
  uncopyable : Option String := none
  deriving DecidableEq

def Store.document (s : Store) : Document :=
  .record [("clusterName", .text s.clusterName),
    ("securityType", .text (Named.name s.securityType)),
    ("desiredStack", s.desiredStack.document),
    ("services", .list (s.services.map (·.document))),
    ("revisions", .list (s.revisions.map (·.document))),
    ("current", .ofRecord .number s.current),
    ("defaults", .ofRecord (.ofRecord (·.document)) s.defaults),
    ("componentRepositories", .ofRecord (.ofRecord (·.document)) s.componentRepositories)]

/-- Why an operation on a store fails. -/
inductive StoreError where
  | noDefaults (stack : String)
  | noRevisions (service stack : String)
  | noService (service cluster : String)
  | noComponent (service component : String)
  | noHost (service component host : String)
  /-- A function, given by its text, stands where only data can be copied. -/
  | notCopyable (text : String)
  deriving DecidableEq

def StoreError.message : StoreError → String
  | noDefaults stack => "No stack definition for " ++ stack
  | noRevisions service stack => "No configurations for " ++ service ++ " on stack " ++ stack
  | noService service cluster => "Service " ++ service ++ " is not installed in " ++ cluster
  | noComponent service component =>
    "Component " ++ service ++ "/" ++ component ++ " is not installed"
  | noHost service component host =>
    "Component " ++ service ++ "/" ++ component ++ " is not installed on " ++ host
  | notCopyable text => text ++ " could not be cloned."

end ClusterUpgrade
