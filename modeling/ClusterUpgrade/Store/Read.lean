import ClusterUpgrade.Reserved
import ClusterUpgrade.Store.Basic
import ClusterUpgrade.Text.Search

/-!
# Reading the store

The revision that is current for a configuration type, the current configuration of a service, the
defaults of a stack, and the property that a placeholder token names.
-/

namespace ClusterUpgrade.Store

/-- The revision with a version; of several the first. -/
def revision? (s : Store) (version : Number) : Option Revision :=
  s.revisions.find? (·.version.same version)

/-- The current revision of a configuration type. -/
def currentRevision? (s : Store) (type : String) : Option Revision :=
  (s.current.get? type).bind s.revision?

/-- The current configuration of a type, as its revision names it. -/
def currentConfig? (s : Store) (type : String) : Option LiveConfig :=
  (s.currentRevision? type).map fun r => ⟨r.type, r.tag, r.properties⟩

/-- The current configuration of every type that a service owns. -/
def liveConfig (s : Store) (service : String) : List LiveConfig :=
  s.current.keys.filterMap fun type =>
    (s.currentRevision? type).bind fun r =>
      if r.service = service then some ⟨type, r.tag, r.properties⟩ else none

/-- The defaults of a service that a stack does not list: none, unless every record has a function
under its name. That function is found in their place, and it cannot be copied. -/
def unlistedDefaults (service : String) : Except StoreError DefaultsByType :=
  if Reserved.isFunction service then .error (.notCopyable (Reserved.functionText service))
  else .ok Record.empty

/-- The defaults of a service on a stack. -/
def defaultsOf (s : Store) (stack : StackId) (service : String) :
    Except StoreError DefaultsByType :=
  match s.defaults.get? stack.text with
  | none => .error (.noDefaults stack.text)
  | some services => (services.get? service).elim (unlistedDefaults service) .ok

/-- The revisions that the program has made, oldest first. -/
def createdRevisions (s : Store) : List Revision := s.revisions.filter (·.actor.isSome)

/-- The service of a name; of several the first. -/
def service? (s : Store) (name : String) : Option ServiceState :=
  s.services.find? (·.name = name)

def componentsOf (s : Store) (service : String) : Except StoreError (List ComponentState) :=
  match s.service? service with
  | none => .error (.noService service s.clusterName)
  | some x => .ok x.components

/-- The configuration type and the property that a token names: what stands before and after the
first slash between its braces. A type is never empty. -/
def tokenPath? (token : String) : Option (String × String) :=
  let inner := (Text.afterPiece? ['\x7b', '\x7b'] token.toList).getD token.toList
  let inner := match Text.afterPiece? ['\x7d', '\x7d'] inner.reverse with
    | some rest => rest.reverse
    | none => inner
  match inner.takeWhile (· ≠ '/'), inner.dropWhile (· ≠ '/') with
  | c :: type, _ :: property => some (String.ofList (c :: type), String.ofList property)
  | _, _ => none

/-- The value of the property that a token names, as a text. A property that is not set, but that
every record has, is written as what is found there. -/
def placeholder? (s : Store) (token : String) : Option String := do
  let (type, property) ← tokenPath? token
  let revision ← s.currentRevision? type
  revision.properties.get? property <|>
    if Reserved.isInherited property then some (Reserved.memberText property) else none

end ClusterUpgrade.Store
