import ClusterUpgrade.Record
import ClusterUpgrade.Stack

/-!
# Stack metadata

Planning and the move to new versions ask for the names to display of services and components, and
whether a component reports a version of its own; any functions may answer. A catalog, which lists
the services of each stack with their components, is one source of such metadata. A look-up in it
fails at the first of stack, service and component that is unknown.
-/

namespace ClusterUpgrade

/-- A component of a service. -/
structure CatalogComponent where
  name : String
  displayName : Option String
  /-- Whether the component reports its own version. -/
  advertisesVersion : Bool

/-- A service of a stack. -/
structure CatalogService where
  name : String
  displayName : Option String
  components : List CatalogComponent

/-- The services of each stack, by the written stack id. -/
abbrev Catalog := Record (List CatalogService)

/-- Why a look-up fails. -/
inductive CatalogError where
  | unknownStack (stack : String)
  | unknownService (stack service : String)
  | unknownComponent (stack service component : String)
  deriving DecidableEq

namespace CatalogError

def message : CatalogError → String
  | unknownStack stack => "Stack " ++ stack ++ " is not defined"
  | unknownService stack service => "Service " ++ service ++ " is not defined in " ++ stack
  | unknownComponent _ service component =>
    "Component " ++ component ++ " is not defined for " ++ service

/-- What was looked up. -/
def path : CatalogError → String
  | unknownStack stack => stack
  | unknownService stack service => stack ++ "/" ++ service
  | unknownComponent stack service component => stack ++ "/" ++ service ++ "/" ++ component

end CatalogError

/-- What answers for the services and components of stacks. -/
structure StackMetadata where
  /-- The name by which a service is displayed. -/
  serviceTitle (stack : StackId) (service : String) : Except CatalogError String
  /-- The name by which a component is displayed. -/
  componentTitle (stack : StackId) (service component : String) : Except CatalogError String
  /-- Whether a component reports its own version. -/
  advertises (stack : StackId) (service component : String) : Except CatalogError Bool

namespace Catalog

def service (c : Catalog) (stack : StackId) (name : String) : Except CatalogError CatalogService :=
  match c.get? stack.text with
  | none => .error (.unknownStack stack.text)
  | some services =>
    match services.find? (·.name = name) with
    | none => .error (.unknownService stack.text name)
    | some s => .ok s

def component (c : Catalog) (stack : StackId) (service name : String) :
    Except CatalogError CatalogComponent :=
  match c.service stack service with
  | .error e => .error e
  | .ok s =>
    match s.components.find? (·.name = name) with
    | none => .error (.unknownComponent stack.text service name)
    | some x => .ok x

/-- The name by which a service is displayed. -/
def serviceTitle (c : Catalog) (stack : StackId) (service : String) : Except CatalogError String :=
  (c.service stack service).map fun s => s.displayName.getD s.name

/-- The name by which a component is displayed. -/
def componentTitle (c : Catalog) (stack : StackId) (service component : String) :
    Except CatalogError String :=
  (c.component stack service component).map fun x => x.displayName.getD x.name

/-- Whether a component reports its own version. -/
def advertises (c : Catalog) (stack : StackId) (service component : String) :
    Except CatalogError Bool :=
  (c.component stack service component).map (·.advertisesVersion)

/-- A catalog answers from its entries. -/
def metadata (c : Catalog) : StackMetadata := ⟨c.serviceTitle, c.componentTitle, c.advertises⟩

instance : Coe Catalog StackMetadata := ⟨metadata⟩

end Catalog

end ClusterUpgrade
