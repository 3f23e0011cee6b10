import ClusterUpgrade.Proofs.Checked
import ClusterUpgrade.Proofs.Store
import ClusterUpgrade.Topology.Check

/-!
# What a description guarantees

`Topology.Sound` is what `Topology.check` promises of every description it gives (`sound_of_check`):
types and services are named once, and stack ids are told apart by their written form
(`StackId.eq_of_text_eq`). `Topology.Accepted` says besides what it leaves out
(`accepted_of_check`). The store of a sound description has one revision of each type, and each
is current (`get?_current_eq_some_iff`). Its runs visit every service once and take them all to one
version (`run_eq_ok`, `exists_run_of_source`).
-/

namespace ClusterUpgrade

/-! ## Written stack ids -/

namespace StackId

/-- A stack id that is read back from its written form. -/
def Written (id : StackId) : Prop := parse? id.text = some id

instance (id : StackId) : Decidable id.Written :=
  inferInstanceAs (Decidable (parse? id.text = some id))

theorem eq_of_text_eq {a b : StackId} (ha : a.Written) (hb : b.Written) (h : a.text = b.text) :
    a = b := by
  unfold Written at ha hb
  rw [h, hb] at ha
  exact (Option.some.inj ha).symm

theorem append_of_splitLastDash {chars name version : List Char}
    (h : splitLastDash chars = some (name, version)) : chars = name ++ '-' :: version := by
  induction chars generalizing name version with
  | nil => cases h
  | cons c rest ih =>
    unfold splitLastDash at h
    cases hrest : splitLastDash rest with
    | some p =>
      simp only [hrest, Option.some.injEq, Prod.mk.injEq] at h
      obtain ⟨rfl, rfl⟩ := h
      rw [ih hrest]
      rfl
    | none =>
      simp only [hrest] at h
      split at h
      · next hc =>
        cases h
        rw [hc]
        rfl
      · cases h

/-- What is read is the text that was written. -/
theorem text_of_parse? {s : String} {id : StackId} (h : parse? s = some id) : id.text = s := by
  unfold parse? at h
  split at h
  · next c name d version hsplit =>
    cases h
    have happend := append_of_splitLastDash hsplit
    apply String.toList_inj.1
    simp [text, happend]
  · cases h

theorem written_of_parse? {s : String} {id : StackId} (h : parse? s = some id) : id.Written := by
  unfold Written
  rw [text_of_parse? h]
  exact h

end StackId

/-! ## Lists without repetition -/

theorem foldl_addDistinct_of_nodup {α : Type} [DecidableEq α] {xs acc : List α}
    (h : (acc ++ xs).Nodup) : xs.foldl addDistinct acc = acc ++ xs := by
  induction xs generalizing acc with
  | nil => exact (List.append_nil acc).symm
  | cons x xs ih =>
    have fresh : x ∉ acc := fun mem => (List.nodup_append.1 h).2.2 x mem x List.mem_cons_self rfl
    rw [List.foldl_cons, addDistinct, if_neg fresh, ih (by simpa using h)]
    simp

theorem distinct_of_nodup {α : Type} [DecidableEq α] {xs : List α} (h : xs.Nodup) :
    distinct xs = xs := foldl_addDistinct_of_nodup h

namespace Topology

/-! ## Sound descriptions -/

/-- What a description has when it comes from a document. -/
structure Sound (t : Topology) : Prop where
  types : (t.configurations.map (·.type)).Nodup
  services : (t.services.map (·.name)).Nodup
  stack : t.stack.Written
  versions : ∀ v ∈ t.repositoryVersions, v.stackId.Written

/-- Every service of a description has a configuration, and every configuration has its service. -/
structure Owned (t : Topology) : Prop where
  owns : ∀ x ∈ t.services, ∃ c ∈ t.configurations, c.service = x.name
  owned : ∀ c ∈ t.configurations, c.service ∈ t.services.map (·.name)

open Checked

/-- Items that are made from the fields of a record under their own names have distinct names. -/
theorem nodup_eachField {α : Type} {d : Document} {field : String} {place : Location}
    {f : String → Document → Location → Checked (Option α)} {name : α → String}
    (distinct : ∀ fields, d.field? field = some (.record fields) → (fields.map Prod.fst).Nodup)
    (own : ∀ key value place a, (f key value place).value = some a → name a = key) :
    ((eachField (d.field? field) place f).value.map name).Nodup := by
  have named (fields : List (String × Document)) (h : (fields.map Prod.fst).Nodup)
      (g : String × Document → Option α) (hg : ∀ e a, g e = some a → name a = e.1) :
      (((fields.map g).filterMap id).map name).Nodup := by
    refine List.Nodup.sublist ?_ h
    clear h
    induction fields with
    | nil => exact List.Sublist.refl _
    | cons e rest ih =>
      cases he : g e with
      | none =>
        rw [List.map_cons, he]
        exact List.Sublist.cons _ ih
      | some a =>
        rw [List.map_cons, he]
        simp only [List.filterMap_cons, id, List.map_cons, hg e a he]
        exact List.Sublist.cons_cons _ ih
  unfold eachField
  simp only [value_bind, value_all, value_pure]
  refine named _ ?_ _ ?_
  · cases hd : d.field? field with
    | none => exact List.nodup_nil
    | some v =>
      cases v with
      | record fields => exact distinct fields hd
      | null | boolean _ | number _ | text _ | list _ => exact List.nodup_nil
  · intro e a ha
    split at ha
    · exact own _ _ _ _ ha
    · cases ha

theorem written_of_requireStack {value : Option Document} {place : Location} {id : StackId}
    (h : (requireStack value place).value = some id) : id.Written := by
  unfold requireStack at h
  split at h
  · split at h
    · next hparse =>
      obtain rfl := Option.some.inj h
      exact StackId.written_of_parse? hparse
    · cases h
  · cases h

theorem written_of_checkVersion {entry : Document × Nat} {v : RepositoryVersion}
    (h : (checkVersion entry).value = some v) : v.stackId.Written := by
  unfold checkVersion at h
  split at h
  · simp only [value_bind] at h
    split at h
    · cases h
    · obtain ⟨id, hid, rfl⟩ := Option.map_eq_some_iff.1 h
      exact written_of_requireStack hid
  · cases h

theorem written_of_checkVersions {value : Option Document} {v : RepositoryVersion}
    (h : v ∈ (checkVersions value).value) : v.stackId.Written := by
  unfold checkVersions at h
  split at h
  · simp only [value_bind, value_all, value_pure, List.mem_filterMap, List.mem_map, id] at h
    obtain ⟨_, ⟨entry, -, rfl⟩, hv⟩ := h
    exact written_of_checkVersion hv
  · cases h

theorem checkFields_of_check {d : Document} {t : Topology} (h : (check d).value = some t) :
    (checkFields d).value = some t := by
  unfold check at h
  split at h
  · simp only at h
    split at h
    · exact h
    · cases h
  · cases h

/-- The parts of a description are what is read from its document. -/
structure ReadFrom (t : Topology) (d : Document) : Prop where
  stack : (requireStack (d.field? "stack") (Location.top "stack")).value = some t.stack
  versions : t.repositoryVersions = (checkVersions (d.field? "repositoryVersions")).value
  services : t.services =
    (eachField (d.field? "services") (Location.top "services") checkService).value
  configurations : t.configurations =
    (eachField (d.field? "configurations") (Location.top "configurations") checkConfig).value

theorem readFrom_of_check {d : Document} {t : Topology} (h : (check d).value = some t) :
    t.ReadFrom d := by
  have hfields := checkFields_of_check h
  unfold checkFields at hfields
  simp only [value_bind, value_pure] at hfields
  split at hfields
  · next clusterName currentVersion stack securityType _ _ hstack _ =>
    obtain rfl := Option.some.inj hfields
    exact ⟨hstack, rfl, rfl, rfl⟩
  · cases hfields

theorem name_of_checkService {key : String} {d : Document} {place : Location} {x : ServiceTopology}
    (h : (checkService key d place).value = some x) : x.name = key := by
  obtain rfl := Option.some.inj h
  rfl

theorem type_of_checkConfig {key : String} {d : Document} {place : Location} {c : ConfigTopology}
    (h : (checkConfig key d place).value = some c) : c.type = key := by
  unfold checkConfig at h
  split at h
  · cases h
  · obtain rfl := Option.some.inj h
    rfl

/-- The description of a document is sound, as long as the records that name services and
configurations have distinct keys. -/
theorem sound_of_check {d : Document} {t : Topology} (h : (check d).value = some t)
    (services : ∀ fields, d.field? "services" = some (.record fields) →
      (fields.map Prod.fst).Nodup)
    (configurations : ∀ fields, d.field? "configurations" = some (.record fields) →
      (fields.map Prod.fst).Nodup) : t.Sound where
  types := by
    rw [(readFrom_of_check h).configurations]
    exact nodup_eachField configurations fun _ _ _ _ => type_of_checkConfig
  services := by
    rw [(readFrom_of_check h).services]
    exact nodup_eachField services fun _ _ _ _ => name_of_checkService
  stack := written_of_requireStack (readFrom_of_check h).stack
  versions := by
    intro v mem
    rw [(readFrom_of_check h).versions] at mem
    exact written_of_checkVersions mem

theorem sound_of_distinctNames {d : Document} {t : Topology} (accepted : (check d).value = some t)
    (distinct : d.distinctNames) : t.Sound :=
  sound_of_check accepted
    (fun _ => Document.nodup_of_field? distinct) fun _ => Document.nodup_of_field? distinct

/-- A sound description in which no configuration has a property of the name that nothing can be
written under. -/
structure Accepted (t : Topology) : Prop extends t.Sound where
  properties : ∀ c ∈ t.configurations, c.properties.get? Reserved.recordName = none

theorem exists_field_of_mem_eachField {α : Type} {value : Option Document} {place : Location}
    {f : String → Document → Location → Checked (Option α)} {a : α}
    (h : a ∈ (eachField value place f).value) : ∃ fields, value = some (.record fields) ∧
      ∃ e ∈ fields, ∃ place, (f e.1 e.2 place).value = some a := by
  unfold eachField at h
  simp only [value_bind, value_all, value_pure, List.mem_filterMap, List.mem_map, id] at h
  obtain ⟨_, ⟨e, mem, rfl⟩, ha⟩ := h
  have made : ∃ place, (f e.1 e.2 place).value = some a := by
    split at ha
    · exact ⟨_, ha⟩
    · cases ha
  cases value with
  | none => cases mem
  | some v =>
    cases v with
    | record fields => exact ⟨fields, rfl, e, mem, made⟩
    | null | boolean _ | number _ | text _ | list _ => cases mem

theorem exists_of_mem_eachField {α : Type} {value : Option Document} {place : Location}
    {f : String → Document → Location → Checked (Option α)} {a : α}
    (h : a ∈ (eachField value place f).value) : ∃ key d place, (f key d place).value = some a := by
  obtain ⟨_, -, e, -, place, made⟩ := exists_field_of_mem_eachField h
  exact ⟨e.1, e.2, place, made⟩

theorem properties_of_checkConfig {type : String} {d : Document} {place : Location}
    {c : ConfigTopology} (h : (checkConfig type d place).value = some c) :
    c.properties.get? Reserved.recordName = none := by
  unfold checkConfig at h
  split at h
  · cases h
  · obtain rfl := Option.some.inj h
    exact Reserved.get?_record_recordName _

theorem accepted_of_check {d : Document} {t : Topology} (h : (check d).value = some t)
    (services : ∀ fields, d.field? "services" = some (.record fields) →
      (fields.map Prod.fst).Nodup)
    (configurations : ∀ fields, d.field? "configurations" = some (.record fields) →
      (fields.map Prod.fst).Nodup) : t.Accepted where
  toSound := sound_of_check h services configurations
  properties := by
    intro c mem
    rw [(readFrom_of_check h).configurations] at mem
    obtain ⟨_, _, _, hc⟩ := exists_of_mem_eachField mem
    exact properties_of_checkConfig hc

/-! ## The store of a description -/

variable {t : Topology}

theorem mem_revisions {r : Revision} : r ∈ t.revisions ↔
    ∃ i c, t.configurations[i]? = some c ∧ r = t.revision (c, i) := by
  unfold revisions
  rw [List.mem_map]
  constructor
  · rintro ⟨⟨c, i⟩, h, rfl⟩
    exact ⟨i, c, List.mk_mem_zipIdx_iff_getElem?.1 h, rfl⟩
  · rintro ⟨i, c, h, rfl⟩
    exact ⟨(c, i), List.mk_mem_zipIdx_iff_getElem?.2 h, rfl⟩

theorem map_type_revisions : t.revisions.map (·.type) = t.configurations.map (·.type) := by
  unfold revisions
  rw [List.map_map]
  have hfst : (fun r : Revision => r.type) ∘ t.revision = ConfigTopology.type ∘ Prod.fst := rfl
  rw [hfst, ← List.map_map, List.zipIdx_map_fst]

theorem map_fst_versions : (t.revisions.map fun r => (r.type, r.version)).map Prod.fst =
    t.configurations.map (·.type) := by
  rw [List.map_map, ← map_type_revisions]
  rfl

theorem stack_of_mem_revisions {r : Revision} (h : r ∈ t.revisions) : r.stack = t.stack.text := by
  obtain ⟨i, c, -, rfl⟩ := mem_revisions.1 h
  rfl

theorem exists_configuration {r : Revision} (h : r ∈ t.revisions) :
    ∃ c ∈ t.configurations, c.service = r.service := by
  obtain ⟨i, c, hc, rfl⟩ := mem_revisions.1 h
  exact ⟨c, List.mem_of_getElem? hc, rfl⟩

theorem Accepted.properties_of_mem (accepted : t.Accepted) {r : Revision} (h : r ∈ t.revisions) :
    r.properties.get? Reserved.recordName = none := by
  obtain ⟨i, c, hc, rfl⟩ := mem_revisions.1 h
  exact accepted.properties c (List.mem_of_getElem? hc)

theorem exists_revision {c : ConfigTopology} (h : c ∈ t.configurations) :
    ∃ r ∈ t.revisions, r.service = c.service := by
  obtain ⟨i, hi⟩ := List.mem_iff_getElem?.1 h
  exact ⟨t.revision (c, i), mem_revisions.2 ⟨i, c, hi, rfl⟩, rfl⟩

/-- Versions tell the revisions of a description apart, as long as counting is exact. -/
theorem eq_of_same_version (few : t.configurations.length < Number.powerOfTwo 53) {a b : Revision}
    (ha : a ∈ t.revisions) (hb : b ∈ t.revisions) (h : a.version.same b.version = true) : a = b := by
  obtain ⟨i, c, hc, rfl⟩ := mem_revisions.1 ha
  obtain ⟨j, d, hd, rfl⟩ := mem_revisions.1 hb
  have hi := (List.getElem?_eq_some_iff.1 hc).1
  have hj := (List.getElem?_eq_some_iff.1 hd).1
  have hij : i + 1 = j + 1 := Number.eq_of_same_ofNat (by omega) (by omega) h
  obtain rfl : i = j := by omega
  rw [hc] at hd
  rw [Option.some.inj hd]

/-- The current versions of a sound description are those of its revisions. -/
theorem get?_current_eq_some_iff (sound : t.Sound) {type : String} {v : Number} :
    t.store.current.get? type = some v ↔ ∃ r ∈ t.revisions, r.type = type ∧ r.version = v := by
  have distinct : ((t.revisions.map fun r => (r.type, r.version)).map Prod.fst).Nodup := by
    rw [map_fst_versions]
    exact sound.types
  refine (Record.get?_ofList_eq_some_iff distinct).trans ?_
  simp only [List.mem_map, Prod.mk.injEq]

theorem sourced_store (sound : t.Sound) : t.store.Sourced where
  numbers := by
    intro r h
    obtain ⟨i, c, -, rfl⟩ := mem_revisions.1 h
    exact Number.ofNat_ne_notANumber _
  current := by
    intro type v hv
    obtain ⟨r, mem, -, hr⟩ := (get?_current_eq_some_iff sound).1 hv
    exact ⟨r, mem, hr⟩

/-! ## Runs over every service -/

section Runs

variable {request : RunRequest} {run : UpgradeRun} {service name : String}
  {v w : RepositoryVersion}

theorem written_of_version (sound : t.Sound) (h : t.version name = .ok v) : v.stackId.Written := by
  unfold version at h
  split at h
  · next hfind =>
    obtain rfl := Except.ok.inj h
    exact sound.versions _ (List.mem_of_find?_eq_some hfind)
  · cases h

/-- A record that gives every service of a description the same version, as far as it can be written
under the name of the service. -/
theorem get?_eachService_iff (sound : t.Sound) :
    (Reserved.record (t.services.map fun x => (x.name, v))).get? service = some w ↔
      Reserved.isWritable service = true ∧ service ∈ t.services.map (·.name) ∧ w = v := by
  cases writable : Reserved.isWritable service with
  | false =>
    have reserved : service = Reserved.recordName := by simpa [Reserved.isWritable] using writable
    simp [reserved, Reserved.get?_record_recordName]
  | true =>
    have distinct : ((t.services.map fun x => (x.name, v)).map Prod.fst).Nodup := by
      rw [List.map_map]
      exact sound.services
    rw [Reserved.get?_record _ writable, Record.get?_ofList_eq_some_iff distinct, and_iff_right rfl]
    simp only [List.mem_map, Prod.mk.injEq]
    constructor
    · rintro ⟨x, hx, rfl, rfl⟩
      exact ⟨⟨x, hx, rfl⟩, rfl⟩
    · rintro ⟨⟨x, hx, rfl⟩, rfl⟩
      exact ⟨x, hx, rfl, rfl⟩

/-- A run is made of the version that it asks for and of a version for each service. -/
theorem exists_of_run (h : t.run request = .ok run) : ∃ target sources source,
    t.version request.target = .ok target ∧ t.sources request = .ok sources ∧
      t.version (request.source.getD t.currentVersion) = .ok source ∧
      run = .ofServices request.direction request.orchestration (request.scope.getD .complete)
        (if request.direction.isDowngrade then source else target) (Reserved.record sources)
        (Reserved.record (t.services.map fun x => (x.name, target))) (t.services.map (·.name)) := by
  unfold Topology.run at h
  cases htarget : t.version request.target with
  | error e => simp [htarget, bind, Except.bind] at h
  | ok target =>
    cases hsources : t.sources request with
    | error e => simp [htarget, hsources, bind, Except.bind] at h
    | ok sources =>
      cases hsource : t.version (request.source.getD t.currentVersion) with
      | error e => simp [htarget, hsources, hsource, bind, Except.bind] at h
      | ok source =>
        simp only [htarget, hsources, hsource, bind, Except.bind, pure, Except.pure,
          Except.ok.injEq] at h
        exact ⟨target, sources, source, rfl, rfl, rfl, h.symm⟩

/-- A run visits the services of the description and takes them all to the version it asks for. -/
theorem run_eq_ok (sound : t.Sound) (h : t.run request = .ok run) :
    ∃ target, t.version request.target = .ok target ∧ run.direction = request.direction ∧
      run.services = t.services.map (·.name) ∧
      ∀ service w, run.targets.get? service = some w → w = target := by
  obtain ⟨target, sources, source, htarget, -, -, rfl⟩ := exists_of_run h
  refine ⟨target, htarget, rfl, distinct_of_nodup sound.services, ?_⟩
  intro service w hw
  exact ((get?_eachService_iff sound).1 hw).2.2

/-- Where sources are found, there is one for every service. -/
theorem names_of_sources {sources : List (String × RepositoryVersion)}
    (h : t.sources request = .ok sources) : sources.map Prod.fst = t.services.map (·.name) := by
  unfold Topology.sources at h
  generalize t.services = services at h
  induction services generalizing sources with
  | nil =>
    obtain rfl := Except.ok.inj h
    rfl
  | cons x rest ih =>
    rw [List.mapM_cons] at h
    cases hv : t.version (request.source.getD (t.versionOf x)) with
    | error e =>
      rw [hv] at h
      cases h
    | ok v =>
      rw [hv] at h
      generalize hrest : (List.mapM _ rest : Except PlanningError (List (String × _))) = others at h
      cases others with
      | error e => cases h
      | ok entries =>
        obtain rfl := Except.ok.inj h
        rw [List.map_cons, List.map_cons, ih hrest]

/-- There is a run for every request that names its source, and it takes every service from there
under whose name something can be written. -/
theorem exists_run_of_source (sound : t.Sound) (request : RunRequest)
    (hsource : request.source = some name) (hv : t.version name = .ok v)
    (hw : t.version request.target = .ok w) :
    ∃ run, t.run request = .ok run ∧ run.direction = request.direction ∧
      run.services = t.services.map (·.name) ∧
      ∀ service ∈ run.services, Reserved.isWritable service = true →
        run.sources.get? service = some v ∧ run.targets.get? service = some w := by
  have hsources : t.sources request = .ok (t.services.map fun x => (x.name, v)) := by
    unfold sources
    simp only [hsource, Option.getD_some, hv]
    exact List.mapM_pure
  have all (u : RepositoryVersion) {service : String}
      (mem : service ∈ distinct (t.services.map (·.name)))
      (writable : Reserved.isWritable service = true) :
      (Reserved.record (t.services.map fun x => (x.name, u))).get? service = some u :=
    (get?_eachService_iff sound).2 ⟨writable, mem_distinct.1 mem, rfl⟩
  refine ⟨.ofServices request.direction request.orchestration (request.scope.getD .complete)
    (if request.direction.isDowngrade then v else w) _ _ _, ?_, rfl,
    distinct_of_nodup sound.services, fun service mem writable =>
      ⟨all v mem writable, all w mem writable⟩⟩
  unfold Topology.run
  simp only [hw, hsources, hsource, Option.getD_some, hv]
  rfl

end Runs

/-! ## Small clusters -/

/-- Two services. The new stack gives the first one a type more, and names for it a type of the
second. -/
def sharedSite : Topology where
  clusterName := "c1"
  securityType := .none
  stack := ⟨"HDP", "2.2"⟩
  namenodeHA := false
  currentVersion := "2.2.0.0"
  repositoryVersions := [⟨"2.2.0.0", ⟨"HDP", "2.2"⟩⟩, ⟨"2.3.0.0", ⟨"HDP", "2.3"⟩⟩]
  services := [⟨"ZOOKEEPER", none, false, none, []⟩, ⟨"HDFS", none, false, none, []⟩]
  configurations := [⟨"zoo.cfg", "ZOOKEEPER", "version1", .ofList [("tickTime", "2000")]⟩,
    ⟨"hdfs-site", "HDFS", "version1", .ofList [("dfs.replication", "3")]⟩]
  stackDefaults := .ofList [("HDP-2.2", .empty), ("HDP-2.3", .ofList
    [("ZOOKEEPER", .ofList [("zookeeper-logs", .empty), ("hdfs-site", .empty)])])]

/-- One service, named like the function that every record is made by. The stacks ship nothing. -/
def makerSite : Topology :=
  { sharedSite with
    services := [⟨"constructor", none, false, none,
      [⟨"SERVER", none, true, ⟨["h1"], none, none, []⟩⟩]⟩]
    configurations := []
    stackDefaults := .ofList [("HDP-2.2", .empty), ("HDP-2.3", .empty)] }

end Topology

end ClusterUpgrade
