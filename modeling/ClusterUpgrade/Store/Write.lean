import ClusterUpgrade.Store.Read

/-!
# Writing the store

Each write gives the new store or the reason why it fails. A write that fails gives no store, so it
has changed nothing.
-/

namespace ClusterUpgrade

/-- Changes the first item with a property; without such an item the change fails. -/
def updateFirst {ε α : Type} (p : α → Bool) (missing : ε) (f : α → Except ε α) :
    List α → Except ε (List α)
  | [] => .error missing
  | a :: rest =>
    if p a then (f a).map (· :: rest) else (updateFirst p missing f rest).map (a :: ·)

namespace Store

/-! ## Services, components and hosts -/

def updateService (s : Store) (service : String)
    (f : ServiceState → Except StoreError ServiceState) : Except StoreError Store :=
  (updateFirst (·.name = service) (.noService service s.clusterName) f s.services).map
    fun services => { s with services }

/-- Changes a component of a service. -/
def updateComponent (s : Store) (service component : String)
    (f : ComponentState → Except StoreError ComponentState) : Except StoreError Store :=
  s.updateService service fun x =>
    (updateFirst (·.name = component) (.noComponent service component) f x.components).map
      fun components => { x with components }

/-- Changes a component on a host. -/
def updateHost (s : Store) (service component host : String) (f : HostState → HostState) :
    Except StoreError Store :=
  s.updateComponent service component fun c =>
    (updateFirst (·.host = host) (.noHost service component host) (fun h => .ok (f h)) c.hosts).map
      fun hosts => { c with hosts }

/-- Sets the repository version that a service should have. -/
def setServiceRepository (s : Store) (service : String) (v : RepositoryVersion) :
    Except StoreError Store :=
  s.updateService service fun x => .ok { x with desiredRepository := some v }

/-- Records the repository version of a component. The function that every record has under the
name of a service takes the place of the record of that service. -/
def recordComponentRepository (s : Store) (service component : String) (v : RepositoryVersion) :
    Store :=
  let components := s.componentRepositories.get? service
  if components.isNone && Reserved.isFunction service then
    { s with uncopyable := s.uncopyable <|> some (Reserved.functionText service) }
  else
    let components := Reserved.write (components.getD Record.empty) component v
    { s with
      componentRepositories := Reserved.write s.componentRepositories service components }

section Record

variable (s : Store) (service component : String) (v : RepositoryVersion)

@[simp] theorem services_recordComponentRepository :
    (s.recordComponentRepository service component v).services = s.services := by
  unfold recordComponentRepository
  dsimp only
  split <;> rfl

@[simp] theorem clusterName_recordComponentRepository :
    (s.recordComponentRepository service component v).clusterName = s.clusterName := by
  unfold recordComponentRepository
  dsimp only
  split <;> rfl

/-- Services are not read. -/
theorem recordComponentRepository_withServices (services : List ServiceState) :
    ({ s with services } : Store).recordComponentRepository service component v =
      { s.recordComponentRepository service component v with services } := by
  unfold recordComponentRepository
  dsimp only
  split <;> rfl

theorem updateService_recordComponentRepository (x : String)
    (f : ServiceState → Except StoreError ServiceState) :
    (s.recordComponentRepository service component v).updateService x f =
      (s.updateService x f).map (·.recordComponentRepository service component v) := by
  let recorded := s.recordComponentRepository service component v
  have found : updateFirst (·.name = x) (.noService x recorded.clusterName) f recorded.services =
      updateFirst (·.name = x) (.noService x s.clusterName) f s.services := by
    rw [services_recordComponentRepository, clusterName_recordComponentRepository]
  unfold updateService
  rw [found]
  cases updateFirst (·.name = x) (.noService x s.clusterName) f s.services with
  | error e => rfl
  | ok services =>
    have same := recordComponentRepository_withServices s service component v services
    exact congrArg Except.ok same.symm

/-- A store stays one that can be copied unless a function comes to stand for the record of a
service. -/
theorem uncopyable_recordComponentRepository :
    (s.recordComponentRepository service component v).uncopyable = none ↔ s.uncopyable = none ∧
      (Reserved.isFunction service = true → s.componentRepositories.has service = true) := by
  unfold recordComponentRepository Record.has
  dsimp only
  split
  · next h => cases s.uncopyable <;> simp_all
  · next h =>
    refine ⟨fun copyable => ⟨copyable, fun function => ?_⟩, And.left⟩
    simpa [function, Option.isSome_iff_ne_none] using h

end Record

/-- Sets the repository version that a component should have. -/
def setComponentRepository (s : Store) (service component : String) (v : RepositoryVersion) :
    Except StoreError Store :=
  (s.updateComponent service component fun c =>
    .ok { c with desiredVersion := some v.version }).map fun s =>
      s.recordComponentRepository service component v

/-- Sets how far the upgrade of a component on a host has come. -/
def setHostState (s : Store) (service component host : String) (state : UpgradeState) :
    Except StoreError Store :=
  s.updateHost service component host fun h => { h with state }

/-- Sets the version of a component on a host. -/
def setHostVersion (s : Store) (service component host version : String) :
    Except StoreError Store :=
  s.updateHost service component host fun h => { h with version }

/-! ## Revisions -/

/-- One above the highest version, and at least 1. Where the whole numbers are too far apart for
that, the nearest number to it. -/
def nextVersion (s : Store) : Number :=
  (s.revisions.foldl (fun m r => m.larger r.version) Number.zero).successor

/-- Adds a revision and makes it current. -/
def addRevision (s : Store) (stack : StackId) (service type : String) (properties : Properties)
    (actor comment : String) : Store :=
  let version := s.nextVersion
  let revision : Revision :=
    { type, service, stack := stack.text, tag := "version" ++ version.text, version, properties
      actor := some actor, comment := some comment }
  { s with
    revisions := s.revisions ++ [revision]
    current := Reserved.write s.current type version }

/-- Adds a revision for every configuration type, in record order. -/
def createRevisions (s : Store) (stack : StackId) (service : String) (configs : PropertiesByType)
    (actor comment : String) : Store :=
  configs.entries.foldl (fun s e => s.addRevision stack service e.1 e.2 actor comment) s

/-- The latest version of each configuration type that a service has on a stack. -/
def latestVersions (s : Store) (stack : StackId) (service : String) : Record Number :=
  s.revisions.foldl
    (fun latest r =>
      if r.service = service ∧ r.stack = stack.text then latest.insert r.type r.version else latest)
    Record.empty

/-- Whether a type is current under a revision of a service. -/
def ownedBy (s : Store) (service type : String) : Bool :=
  (s.currentRevision? type).any fun r => r.service = service

/-- Makes the latest configurations of a service on a stack current again. Types that the service
has current and the stack has not are no longer current. -/
def applyLatest (s : Store) (stack : StackId) (service : String) : Except StoreError Store :=
  let latest := s.latestVersions stack service
  if latest.entries.isEmpty then .error (.noRevisions service stack.text)
  else
    let kept := s.current.filterKeys fun type => !(s.ownedBy service type && !latest.has type)
    .ok { s with current := Reserved.overlay kept latest }

end Store

end ClusterUpgrade
