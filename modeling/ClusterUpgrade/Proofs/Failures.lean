import ClusterUpgrade.Proofs.Document
import ClusterUpgrade.Proofs.Independence
import ClusterUpgrade.Proofs.Layout
import ClusterUpgrade.Proofs.Names
import ClusterUpgrade.Proofs.Reconcile.Outcome
import ClusterUpgrade.Proofs.Topology

/-!
# Failures on a described cluster

The store, the stack metadata and the runs of a description all come from one document. So the names
and versions that a move looks up are there, and it never fails (`exists_move`). A reconciliation
fails only where the description leaves defaults or configurations out, which is not checked
(`Unprovided`), and so does the move together with it (`fails_only_unprovided`).
-/

namespace ClusterUpgrade

/-! ## Descriptions -/

namespace Topology

/-- The services of a description, with their components and the hosts of these. -/
def layout (t : Topology) : Layout :=
  t.services.map fun x => (x.name, x.components.map fun c => (c.name, c.placement.hosts))

variable {d : Document} {t : Topology} {request : RunRequest} {run : UpgradeRun}

theorem layout_store : t.store.layout = t.layout := by
  simp [Store.layout, layout, store, serviceState, ServiceState.layout, componentState,
    ComponentState.layout, Function.comp_def]

theorem name_of_checkComponent {key : String} {d : Document} {place : Location}
    {c : ComponentTopology} (h : (checkComponent key d place).value = some c) : c.name = key := by
  unfold checkComponent at h
  split at h
  · obtain rfl := Option.some.inj h
    rfl
  · cases h

/-- The components of a service that is read from a document are told apart by their names. -/
theorem nodup_of_checkService {name : String} {place : Location} {x : ServiceTopology}
    (distinct : d.distinctNames) (h : (checkService name d place).value = some x) :
    (x.components.map (·.name)).Nodup := by
  obtain rfl := Option.some.inj h
  exact nodup_eachField (fun _ => Document.nodup_of_field? distinct) fun _ _ _ _ =>
    name_of_checkComponent

theorem nodup_components (accepted : (check d).value = some t) (distinct : d.distinctNames)
    {x : ServiceTopology} (hx : x ∈ t.services) : (x.components.map (·.name)).Nodup := by
  rw [(readFrom_of_check accepted).services] at hx
  obtain ⟨fields, hservices, e, mem, place, made⟩ := exists_field_of_mem_eachField hx
  have within := Document.distinctNames_of_field? distinct hservices
  exact nodup_of_checkService ((Document.distinctNames_record_iff.1 within).2 e mem) made

theorem distinct_layout (accepted : (check d).value = some t) (distinct : d.distinctNames) :
    t.layout.Distinct where
  services := by
    rw [layout, List.map_map]
    exact (sound_of_distinctNames accepted distinct).services
  components := by
    intro x mem
    obtain ⟨y, hy, rfl⟩ := List.mem_map.1 mem
    rw [List.map_map]
    exact nodup_components accepted distinct hy

/-! ## Look-ups that never fail -/

/-- Something can be written under the name of every service. -/
def NamesWritable (t : Topology) : Prop := ∀ x ∈ t.services, Reserved.isWritable x.name = true

instance : Decidable t.NamesWritable :=
  inferInstanceAs (Decidable (∀ x ∈ t.services, Reserved.isWritable x.name = true))

/-- Every stack of a description has all of its services. -/
theorem catalog_get? {stack : StackId}
    (registered : stack ∈ t.repositoryVersions.map (·.stackId) ++ [t.stack]) :
    t.catalog.get? stack.text = some t.catalogServices := by
  have listed : t.catalog.has stack.text = true := by
    unfold catalog Record.ofList
    rw [Record.has_foldl_insert, Bool.or_eq_true, decide_eq_true_iff, List.map_map]
    exact Or.inl (List.mem_map.2 ⟨stack, registered, rfl⟩)
  obtain ⟨services, hservices⟩ := Record.has_iff.1 listed
  rcases Record.exists_of_get?_foldl_insert Prod.fst Prod.snd hservices with
    ⟨e, mem, -, rfl⟩ | absent
  · obtain ⟨_, -, rfl⟩ := List.mem_map.1 mem
    exact hservices
  · cases absent

/-- The components of a description are known on each of its stacks. -/
theorem advertises_eq (sound : t.Sound) {stack : StackId}
    (registered : stack ∈ t.repositoryVersions.map (·.stackId) ++ [t.stack])
    {x : ServiceTopology} (hx : x ∈ t.services) (distinct : (x.components.map (·.name)).Nodup)
    {c : ComponentTopology} (hc : c ∈ x.components) :
    t.catalog.advertises stack x.name c.name = .ok c.advertisesVersion := by
  have service : t.catalogServices.find? (·.name = x.name) =
      some { name := x.name, displayName := x.displayName
             components := x.components.map fun c =>
               ⟨c.name, c.displayName, c.advertisesVersion⟩ } :=
    List.find?_map.trans (congrArg _ (find?_name_eq sound.services hx))
  have component : (x.components.map fun c =>
      (⟨c.name, c.displayName, c.advertisesVersion⟩ : CatalogComponent)).find? (·.name = c.name) =
        some ⟨c.name, c.displayName, c.advertisesVersion⟩ :=
    List.find?_map.trans (congrArg _ (find?_name_eq distinct hc))
  simp only [Catalog.advertises, Catalog.component, Catalog.service, catalog_get? registered,
    service, component, Except.map]

/-- A run has a source for every service whose name can be written, and one target for all of them,
which is registered. -/
theorem versions_of_run (sound : t.Sound) (writable : t.NamesWritable)
    (h : t.run request = .ok run) :
    run.services = t.services.map (·.name) ∧
    (∀ x ∈ t.services, ∃ v, run.sources.get? x.name = some v) ∧
    ∃ w ∈ t.repositoryVersions, ∀ x ∈ t.services, run.targets.get? x.name = some w := by
  obtain ⟨target, sources, source, htarget, hsources, -, rfl⟩ := exists_of_run h
  refine ⟨distinct_of_nodup sound.services, fun x hx => ?_, target, ?_, fun x hx => ?_⟩
  · have names := names_of_sources hsources
    have there : (Record.ofList sources).has x.name = true := by
      unfold Record.ofList
      rw [Record.has_foldl_insert, Bool.or_eq_true, decide_eq_true_iff, names]
      exact Or.inl (List.mem_map_of_mem hx)
    obtain ⟨v, hv⟩ := Record.has_iff.1 there
    exact ⟨v, (Reserved.get?_record sources (writable x hx)).trans hv⟩
  · unfold version at htarget
    split at htarget
    · next hfind =>
      obtain rfl := Except.ok.inj htarget
      exact List.mem_of_find?_eq_some hfind
    · cases htarget
  · exact (get?_eachService_iff sound).2 ⟨writable x hx, List.mem_map_of_mem hx, rfl⟩

end Topology

/-! ## The move to new versions -/

open Operation

section Transitions

variable {d : Document} {t : Topology} {request : RunRequest} {run : UpgradeRun}
  {options : ReconcileOptions} {e : TransitionError}

/-- A move on a described cluster succeeds in silence. -/
theorem exists_move (accepted : (Topology.check d).value = some t) (distinct : d.distinctNames)
    (writable : t.NamesWritable) (requested : t.run request = .ok run) : ∃ ts s,
      (Repositories.steps run t.catalog).run t.store = ⟨s, [], .ok ts⟩ ∧
      ts.map (fun c => (c.service, c.component)) =
        t.services.flatMap fun x => x.components.map fun c => (x.name, c.name) := by
  have sound := Topology.sound_of_distinctNames accepted distinct
  obtain ⟨services, -, w, registered, targets⟩ := Topology.versions_of_run sound writable requested
  have names : run.services = t.layout.map Prod.fst := by
    rw [services, Topology.layout, List.map_map]
    rfl
  have known : ∀ x ∈ t.layout, ∃ w, run.targets.get? x.1 = some w ∧
      ∀ c ∈ x.2, ∃ b, t.catalog.metadata.advertises w.stackId x.1 c.1 = .ok b := by
    intro x mem
    obtain ⟨y, hy, rfl⟩ := List.mem_map.1 mem
    refine ⟨w, targets y hy, fun p hp => ?_⟩
    obtain ⟨c, hc, rfl⟩ := List.mem_map.1 hp
    have stack : w.stackId ∈ t.repositoryVersions.map (·.stackId) ++ [t.stack] :=
      List.mem_append_left _ (List.mem_map_of_mem registered)
    exact ⟨_, Topology.advertises_eq sound stack hy
      (Topology.nodup_components accepted distinct hy) hc⟩
  obtain ⟨ts, s, hrun, -, told⟩ := Repositories.steps_yields
    (Topology.distinct_layout accepted distinct) names known t.store Topology.layout_store
  refine ⟨ts, s, hrun, told.trans ?_⟩
  rw [Topology.layout, List.flatMap_map]
  simp only [List.map_map]
  rfl

/-- Why a reconciliation of a described cluster fails: an upgrade misses the defaults of a stack
that a service comes from or goes to, or of a service that is named like a function, which is found
in their place; and a downgrade misses the configurations that a service had on the stack it goes
to. -/
inductive Unprovided (t : Topology) (run : UpgradeRun) : TransitionError → Prop where
  | noDefaults {x : ServiceTopology} {v : RepositoryVersion} (hx : x ∈ t.services)
      (up : run.direction = .upgrade)
      (crossed : run.sources.get? x.name = some v ∨ run.targets.get? x.name = some v)
      (missing : t.stackDefaults.get? v.stackId.text = none) :
      Unprovided t run (.refused (.noDefaults v.stackId.text))
  | functionDefaults {x : ServiceTopology} {v : RepositoryVersion}
      {services : Record DefaultsByType} (hx : x ∈ t.services) (up : run.direction = .upgrade)
      (crossed : run.sources.get? x.name = some v ∨ run.targets.get? x.name = some v)
      (there : t.stackDefaults.get? v.stackId.text = some services)
      (unlisted : services.get? x.name = none) (named : Reserved.isFunction x.name = true) :
      Unprovided t run (.refused (.notCopyable (Reserved.functionText x.name)))
  | noRevisions {x : ServiceTopology} {w : RepositoryVersion} (hx : x ∈ t.services)
      (down : run.direction = .downgrade) (target : run.targets.get? x.name = some w)
      (missing : ∀ r ∈ t.store.revisions, r.service = x.name → r.stack ≠ w.stackId.text) :
      Unprovided t run (.refused (.noRevisions x.name w.stackId.text))

theorem Unprovided.code_eq (h : Unprovided t run e) : e.code = "STORE_FAILURE" := by
  cases h <;> rfl

theorem unprovided_of_noDefaults {x : ServiceTopology} {v : RepositoryVersion} {cause : StoreError}
    (hx : x ∈ t.services) (up : run.direction = .upgrade)
    (crossed : run.sources.get? x.name = some v ∨ run.targets.get? x.name = some v)
    (missing : Reconcile.NoDefaults t.store v.stackId x.name cause) :
    Unprovided t run (.refused cause) := by
  cases missing with
  | stack missing => exact .noDefaults hx up crossed missing
  | service there unlisted named => exact .functionDefaults hx up crossed there unlisted named

/-- An obstacle of a reconciliation is something that the description leaves out. -/
theorem unprovided_of_obstacle (sound : t.Sound) (writable : t.NamesWritable)
    (requested : t.run request = .ok run)
    {before : List String} {service : String} (listed : service ∈ run.services)
    (obstacle : Reconcile.Obstacle run options t.store before service e) : Unprovided t run e := by
  obtain ⟨services, sources, w₀, -, targets⟩ := Topology.versions_of_run sound writable requested
  obtain ⟨x, hx, rfl⟩ := List.mem_map.1 (services ▸ listed)
  obtain ⟨v₀, hv₀⟩ := sources x hx
  cases obstacle with
  | noSource hv =>
    rw [hv] at hv₀
    cases hv₀
  | noTarget _ hw =>
    have hw₀ := targets x hx
    rw [hw] at hw₀
    cases hw₀
  | noSourceDefaults hv _ _ up missing => exact unprovided_of_noDefaults hx up (Or.inl hv) missing
  | noTargetDefaults _ hw _ up _ missing => exact unprovided_of_noDefaults hx up (Or.inr hw) missing
  | noRevisions _ hw _ down _ _ missing =>
    exact .noRevisions hx down hw fun r hr owned stack => missing r hr ⟨owned, stack⟩

theorem unprovided_of_eval (sound : t.Sound) (writable : t.NamesWritable)
    (requested : t.run request = .ok run)
    (failed : eval (Reconcile.steps run options) t.store = .error e) : Unprovided t run e := by
  obtain ⟨passed, service, rest, services, obstacle, -⟩ :=
    Reconcile.eval_steps_eq_error_iff.1 failed
  have listed : service ∈ run.services := by
    rw [services]
    exact List.mem_append_right passed List.mem_cons_self
  exact unprovided_of_obstacle sound writable requested listed obstacle

end Transitions

/-- A document with one service and without any defaults. -/
def bareDocument : Document :=
  let version (v stack : String) : Document :=
    .record [("version", .text v), ("stack", .text stack)]
  .record [("clusterName", .text "c1"), ("stack", .text "HDP-2.2"),
    ("currentVersion", .text "2.2.0.0"),
    ("repositoryVersions", .list [version "2.2.0.0" "HDP-2.2", version "2.3.0.0" "HDP-2.3"]),
    ("services", .record [("ZOOKEEPER", .record [("components", .record
      [("ZOOKEEPER_SERVER", .record [("hosts", .texts ["h1", "h2"])])])])])]

/-- The description that it holds. -/
def bareTopology : Topology where
  clusterName := "c1"
  securityType := .none
  stack := ⟨"HDP", "2.2"⟩
  namenodeHA := false
  currentVersion := "2.2.0.0"
  repositoryVersions := [⟨"2.2.0.0", ⟨"HDP", "2.2"⟩⟩, ⟨"2.3.0.0", ⟨"HDP", "2.3"⟩⟩]
  services := [⟨"ZOOKEEPER", none, false, none,
    [⟨"ZOOKEEPER_SERVER", none, true, ⟨["h1", "h2"], none, none, []⟩⟩]⟩]
  configurations := []
  stackDefaults := .empty

/-- The upgrade of its service to the next stack. -/
def bareRun : UpgradeRun :=
  .ofServices .upgrade .rolling .complete ⟨"2.3.0.0", ⟨"HDP", "2.3"⟩⟩
    (.ofList [("ZOOKEEPER", ⟨"2.2.0.0", ⟨"HDP", "2.2"⟩⟩)])
    (.ofList [("ZOOKEEPER", ⟨"2.3.0.0", ⟨"HDP", "2.3"⟩⟩)]) ["ZOOKEEPER"]

end ClusterUpgrade
