import ClusterUpgrade.Document.Basic

/-!
# Hosts of components

Planning asks a resolver on which hosts a component runs; any function may answer. A host table is
one such resolver: it is looked up by the service and the component, written with a slash between
them. Hosts that are unhealthy are left out of the hosts to work on and reported beside them.
-/

namespace ClusterUpgrade

/-- What a host table knows of a component. -/
structure ComponentHosts where
  hosts : List String
  /-- The active instance of a component with two. -/
  master : Option String
  /-- The standby instance. -/
  secondary : Option String
  unhealthy : List String
  deriving DecidableEq

/-- The hosts to work on for a component. -/
structure HostGroup where
  hosts : List String
  master : Option String
  secondary : Option String
  unhealthy : List String
  deriving DecidableEq

/-- What answers for the hosts of components. -/
structure HostResolver where
  /-- The hosts to work on for a component; none when it is installed nowhere. -/
  resolve? (service component : String) : Option HostGroup
  /-- Whether the NameNode is highly available. -/
  namenodeHA : Bool

/-- The hosts of a component without those that are unhealthy. -/
def ComponentHosts.group (c : ComponentHosts) : HostGroup :=
  { hosts := c.hosts.filter fun h => h ∉ c.unhealthy
    master := c.master
    secondary := c.secondary
    unhealthy := c.unhealthy }

def HostGroup.document (g : HostGroup) : Document :=
  .ofOptional [("hosts", some (.texts g.hosts)), ("unhealthy", some (.texts g.unhealthy)),
    ("master", g.master.map .text), ("secondary", g.secondary.map .text)]

/-- A service and a component of it, written with a slash between them. -/
def componentKey (service component : String) : String := service ++ "/" ++ component

/-- The hosts of all components, and whether the NameNode is highly available. -/
structure HostTable where
  table : Record ComponentHosts
  namenodeHA : Bool

namespace HostTable

/-- The table of the components of some services. -/
def ofServices (services : List (String × List (String × ComponentHosts))) (namenodeHA : Bool) :
    HostTable :=
  ⟨Record.ofList (services.flatMap fun s => s.2.map fun c => (componentKey s.1 c.1, c.2)),
    namenodeHA⟩

/-- The hosts to work on for a component; none when it is installed nowhere. -/
def resolve? (t : HostTable) (service component : String) : Option HostGroup :=
  (t.table.get? (componentKey service component)).map (·.group)

/-- A host table answers from its entries. -/
def resolver (t : HostTable) : HostResolver := ⟨t.resolve?, t.namenodeHA⟩

instance : Coe HostTable HostResolver := ⟨resolver⟩

end HostTable

end ClusterUpgrade
