import ClusterUpgrade.Config.Repositories
import ClusterUpgrade.Proofs.Operation
import ClusterUpgrade.Proofs.Store

/-!
# The parts of transitions

The move to new versions and the reconciliation of configurations are put together from a few parts:
the versions that the run names, what is said, one way to read the store for each of the two, and
their own writes. A property that passes from the parts of an operation to the whole holds of all
steps of a transition once it holds of these (`Repositories.Parts.steps`, `Reconcile.Parts.steps`).

The writes of the move leave everything but services as it is (`Store.MovedFrom`), and those of the
reconciliation everything but configurations (`Store.ReconciledFrom`); so do all steps of the two
(`Repositories.keeps_movedFrom`, `Reconcile.keeps_reconciledFrom`).
-/

namespace ClusterUpgrade

/-! ## Writes of services, and of configurations -/

namespace Store

/-- A store with the services of another, and with the repositories of their components. -/
def withServicesOf (s t : Store) : Store :=
  { s with
    services := t.services
    componentRepositories := t.componentRepositories
    uncopyable := t.uncopyable }

/-- A store with the revisions of another, and with what is current there. -/
def withConfigsOf (s t : Store) : Store :=
  { s with revisions := t.revisions, current := t.current }

/-- A store that differs from an earlier one in its services only. -/
def MovedFrom (s t : Store) : Prop := t = s.withServicesOf t

/-- A store that differs from an earlier one in its configurations only. -/
def ReconciledFrom (s t : Store) : Prop := t = s.withConfigsOf t

variable {s t u : Store} {stack : StackId} {service component host : String}

theorem MovedFrom.configs (h : MovedFrom s t) :
    t.revisions = s.revisions ∧ t.current = s.current := by
  unfold MovedFrom at h
  rw [h]
  exact ⟨rfl, rfl⟩

theorem MovedFrom.trans (h : MovedFrom s t) (h' : MovedFrom t u) : MovedFrom s u :=
  Eq.trans h' (congrArg (·.withServicesOf u) h)

theorem ReconciledFrom.trans (h : ReconciledFrom s t) (h' : ReconciledFrom t u) :
    ReconciledFrom s u := Eq.trans h' (congrArg (·.withConfigsOf u) h)

theorem exists_services_of_updateService {f : ServiceState → Except StoreError ServiceState}
    (h : s.updateService service f = .ok t) : ∃ services, t = { s with services } := by
  unfold updateService at h
  cases hf : updateFirst (·.name = service) (.noService service s.clusterName) f s.services with
  | error e =>
    rw [hf] at h
    cases h
  | ok services =>
    rw [hf] at h
    exact ⟨services, (Except.ok.inj h).symm⟩

theorem movedFrom_updateService {f : ServiceState → Except StoreError ServiceState}
    (h : s.updateService service f = .ok t) : MovedFrom s t := by
  obtain ⟨services, rfl⟩ := exists_services_of_updateService h
  rfl

theorem uncopyable_updateService {f : ServiceState → Except StoreError ServiceState}
    (h : s.updateService service f = .ok t) : t.uncopyable = s.uncopyable := by
  obtain ⟨services, rfl⟩ := exists_services_of_updateService h
  rfl

theorem movedFrom_setServiceRepository {v : RepositoryVersion}
    (h : s.setServiceRepository service v = .ok t) : MovedFrom s t := movedFrom_updateService h

theorem movedFrom_recordComponentRepository (s : Store) (service component : String)
    (v : RepositoryVersion) : MovedFrom s (s.recordComponentRepository service component v) := by
  unfold recordComponentRepository
  dsimp only
  split <;> rfl

theorem movedFrom_setComponentRepository {v : RepositoryVersion}
    (h : s.setComponentRepository service component v = .ok t) : MovedFrom s t := by
  unfold setComponentRepository at h
  cases hf : s.updateComponent service component
      fun c => .ok { c with desiredVersion := some v.version } with
  | error e =>
    rw [hf] at h
    cases h
  | ok s₁ =>
    rw [hf] at h
    obtain rfl := Except.ok.inj h
    have moved : MovedFrom s s₁ := movedFrom_updateService hf
    exact moved.trans (movedFrom_recordComponentRepository s₁ service component v)

/-- The record of a service that is not named like a function can be copied. -/
theorem copyable_setComponentRepository {v : RepositoryVersion}
    (plain : Reserved.isFunction service = false) (copyable : s.uncopyable = none)
    (h : s.setComponentRepository service component v = .ok t) : t.uncopyable = none := by
  unfold setComponentRepository at h
  cases hf : s.updateComponent service component
      fun c => .ok { c with desiredVersion := some v.version } with
  | error e =>
    rw [hf] at h
    cases h
  | ok s₁ =>
    rw [hf] at h
    obtain rfl := Except.ok.inj h
    refine (uncopyable_recordComponentRepository s₁ service component v).2 ⟨?_, ?_⟩
    · exact (uncopyable_updateService hf).trans copyable
    · intro function
      rw [plain] at function
      cases function

theorem movedFrom_updateHost {f : HostState → HostState}
    (h : s.updateHost service component host f = .ok t) : MovedFrom s t :=
  movedFrom_updateService h

theorem reconciledFrom_applyLatest (h : s.applyLatest stack service = .ok t) :
    ReconciledFrom s t := by
  obtain ⟨-, rfl⟩ := applyLatest_eq_ok_iff.1 h
  rfl

theorem reconciledFrom_createRevisions (stack : StackId) (service : String)
    (configs : PropertiesByType) (actor comment : String) :
    ReconciledFrom s (s.createRevisions stack service configs actor comment) :=
  createRevisions_induction actor comment configs
    (fun _ _ _ reconciled => ReconciledFrom.trans reconciled rfl) rfl

end Store

/-- A write that the store may refuse keeps what it keeps when it does not. -/
theorem Operation.Keeps.transition {P : Store → Prop} {f : Store → Except StoreError Store}
    (h : ∀ s s', f s = .ok s' → P s → P s') : Operation.Keeps P (Transition.writing f) := by
  refine .writing fun s s' hf hs => ?_
  cases hw : f s with
  | error e =>
    rw [hw] at hf
    cases hf
  | ok s₁ =>
    rw [hw] at hf
    obtain rfl := Except.ok.inj hf
    exact h s s₁ hw hs

theorem Operation.Composes.version {Q : (α : Type) → Transition α → Prop}
    (composes : Operation.Composes Q) (run : UpgradeRun) (side : Side) (service : String) :
    Q RepositoryVersion (Transition.version run side service) := by
  simp only [Transition.version]
  generalize Record.get? _ service = v
  cases v with
  | none => exact composes.fail _
  | some v => exact composes.pure v

/-! ## Reconciliation -/

namespace Reconcile

/-- A property that composes and that the parts of a reconciliation have. -/
structure Parts (Q : (α : Type) → Transition α → Prop) : Prop extends Operation.Composes Q where
  say (level : Log.Level) (message : String) (context : Record Document) :
    Q Unit (Transition.say level message context)
  merge (source target : StackId) (service : String) :
    Q Merge (Transition.reading (mergeOf source target service))
  applyLatest (stack : StackId) (service : String) :
    Q Unit (Transition.writing (·.applyLatest stack service))
  create (stack : StackId) (service : String) (configs : PropertiesByType)
    (actor comment : String) :
    Q Unit (Transition.writing fun s => .ok (s.createRevisions stack service configs actor comment))

namespace Parts

variable {Q : (α : Type) → Transition α → Prop} (parts : Parts Q) (run : UpgradeRun)
  (options : ReconcileOptions)

include parts

theorem revert (target : StackId) (service : String) :
    Q ConfigChange (Reconcile.revert options target service) := by
  have apply_latest := parts.when (!options.dryRun) (parts.applyLatest target service)
  exact parts.bind (parts.say _ _ _) fun _ => parts.bind apply_latest fun _ => parts.pure _

theorem upgrade (source target : StackId) (service : String) :
    Q ConfigChange (Reconcile.upgrade run options source target service) := by
  refine parts.bind (parts.merge source target service) fun m => ?_
  have create := parts.when (!options.dryRun)
    (parts.create target service m.configs options.actor options.comment)
  refine parts.bind (parts.each fun _ _ => parts.say _ _ _) fun _ => ?_
  exact parts.bind (parts.say _ _ _) fun _ => parts.bind create fun _ => parts.pure _

theorem visit (ended : Bool) (service : String) :
    Q ServiceChange (Reconcile.visit run options ended service) := by
  refine parts.bind (parts.version _ _ _) fun v => parts.bind (parts.version _ _ _) fun w => ?_
  dsimp only
  split
  · exact parts.bind (parts.pure _) fun _ => parts.pure _
  · split
    · refine parts.bind (parts.say _ _ _) fun _ => ?_
      exact parts.bind (parts.pure _) fun _ => parts.pure _
    · split
      · exact parts.bind (parts.revert options _ _) fun _ => parts.pure _
      · exact parts.bind (parts.upgrade run options _ _ _) fun _ => parts.pure _

theorem visitAll (services : List String) :
    ∀ ended, Q (List ServiceChange) (Reconcile.visitAll run options ended services) := by
  induction services with
  | nil => exact fun _ => parts.pure _
  | cons service rest ih =>
    intro ended
    refine parts.bind (parts.visit run options ended service) fun c => ?_
    exact parts.bind (ih _) fun _ => parts.pure _

theorem steps : Q (List ServiceChange) (Reconcile.steps run options) :=
  parts.visitAll run options run.services false

end Parts

open Operation in
theorem keeps_reconciledFrom (run : UpgradeRun) (options : ReconcileOptions) (s : Store) :
    Keeps s.ReconciledFrom (steps run options) := by
  have parts : Parts fun _ op => Keeps s.ReconciledFrom op :=
    { Keeps.composes with
      say := fun _ _ _ => fun _ h => h
      merge := fun _ _ _ => .reading _
      applyLatest := fun _ _ => .transition fun _ _ applied reconciled =>
        reconciled.trans (Store.reconciledFrom_applyLatest applied)
      create := fun stack service configs actor comment => .transition fun t u hf reconciled => by
        obtain rfl := Except.ok.inj hf
        exact reconciled.trans
          (Store.reconciledFrom_createRevisions stack service configs actor comment) }
  exact parts.steps run options

end Reconcile

/-! ## New versions -/

namespace Repositories

/-- A property that composes and that the parts of a move of some services to new versions have. -/
structure Parts (services : List String) (Q : (α : Type) → Transition α → Prop) : Prop
    extends Operation.Composes Q where
  say (level : Log.Level) (message : String) (context : Record Document) :
    Q Unit (Transition.say level message context)
  componentsOf (service : String) :
    Q (List ComponentState) (Transition.reading (·.componentsOf service))
  setService {service : String} (mem : service ∈ services) (v : RepositoryVersion) :
    Q Unit (Transition.writing (·.setServiceRepository service v))
  setComponent {service : String} (mem : service ∈ services) (component : String)
    (v : RepositoryVersion) :
    Q Unit (Transition.writing (·.setComponentRepository service component v))
  setState (service component host : String) (state : UpgradeState) :
    Q Unit (Transition.writing (·.setHostState service component host state))
  setVersion (service component host version : String) :
    Q Unit (Transition.writing (·.setHostVersion service component host version))

namespace Parts

variable {Q : (α : Type) → Transition α → Prop} {services : List String} (parts : Parts services Q)
  (catalog : StackMetadata) {service : String}

include parts

theorem markHost (component : String) (advertised : Bool) (state : UpgradeState)
    (h : HostState) : Q Unit (Repositories.markHost service component advertised state h) :=
  parts.bind (parts.when _ (parts.setState _ _ _ _)) fun _ =>
    parts.when _ (parts.setVersion _ _ _ _)

theorem advertises (stack : StackId) (component : String) :
    Q Bool (Repositories.advertises catalog stack service component) := by
  unfold Repositories.advertises
  split
  · exact parts.pure _
  · exact parts.bind (parts.say _ _ _) fun _ => parts.pure _

variable (mem : service ∈ services)

include mem

theorem moveComponent (target : RepositoryVersion) (c : ComponentState) :
    Q ComponentTransition (Repositories.moveComponent catalog service target c) := by
  refine parts.bind (parts.setComponent mem _ _) fun _ => ?_
  refine parts.bind (parts.advertises catalog _ _) fun _ => ?_
  exact parts.bind (parts.each fun h _ => parts.markHost c.name _ _ h) fun _ => parts.pure _

theorem moveService (run : UpgradeRun) :
    Q (List ComponentTransition) (Repositories.moveService run catalog service) := by
  refine parts.bind (parts.version _ _ _) fun target => ?_
  refine parts.bind (parts.setService mem _) fun _ => ?_
  refine parts.bind (parts.componentsOf _) fun _ => ?_
  exact parts.each fun c _ => parts.moveComponent catalog mem target c

end Parts

theorem Parts.steps {Q : (α : Type) → Transition α → Prop} {run : UpgradeRun}
    (parts : Parts run.services Q) (catalog : StackMetadata) :
    Q (List ComponentTransition) (Repositories.steps run catalog) :=
  parts.bind (parts.each fun _ mem => parts.moveService catalog mem run) fun _ => parts.pure _

open Operation in
theorem keeps_movedFrom (run : UpgradeRun) (catalog : StackMetadata) (s : Store) :
    Keeps s.MovedFrom (steps run catalog) := by
  have write {f : Store → Except StoreError Store} (h : ∀ t u, f t = .ok u → t.MovedFrom u) :
      Keeps s.MovedFrom (Transition.writing f) :=
    .transition fun t u hf moved => moved.trans (h t u hf)
  have parts : Parts run.services fun _ op => Keeps s.MovedFrom op :=
    { Keeps.composes with
      say := fun _ _ _ => fun _ h => h
      componentsOf := fun _ => .reading _
      setService := fun _ _ => write fun _ _ => Store.movedFrom_setServiceRepository
      setComponent := fun _ _ _ => write fun _ _ => Store.movedFrom_setComponentRepository
      setState := fun _ _ _ _ => write fun _ _ => Store.movedFrom_updateHost
      setVersion := fun _ _ _ _ => write fun _ _ => Store.movedFrom_updateHost }
  exact parts.steps catalog

open Operation in
/-- A move leaves a store that can be copied, if none of its services is named like a function. -/
theorem keeps_copyable {run : UpgradeRun}
    (plain : ∀ service ∈ run.services, Reserved.isFunction service = false)
    (catalog : StackMetadata) : Keeps (fun s => s.uncopyable = none) (steps run catalog) := by
  have update {f : Store → Except StoreError Store}
      (h : ∀ t u, f t = .ok u → u.uncopyable = t.uncopyable) :
      Keeps (fun s => s.uncopyable = none) (Transition.writing f) :=
    .transition fun t u hf copyable => (h t u hf).trans copyable
  have parts : Parts run.services fun _ op => Keeps (fun s => s.uncopyable = none) op :=
    { Keeps.composes with
      say := fun _ _ _ => fun _ h => h
      componentsOf := fun _ => .reading _
      setService := fun _ _ => update fun _ _ => Store.uncopyable_updateService
      setComponent := fun mem _ _ => .transition fun _ _ hf copyable =>
        Store.copyable_setComponentRepository (plain _ mem) copyable hf
      setState := fun _ _ _ _ => update fun _ _ => Store.uncopyable_updateService
      setVersion := fun _ _ _ _ => update fun _ _ => Store.uncopyable_updateService }
  exact parts.steps catalog

end Repositories

end ClusterUpgrade
