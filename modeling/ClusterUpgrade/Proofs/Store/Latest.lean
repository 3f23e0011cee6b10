import ClusterUpgrade.Proofs.Live
import ClusterUpgrade.Proofs.Steps
import ClusterUpgrade.Proofs.Topology

/-!
# Making the latest configurations current

The revisions of a service on a stack stand in the order in which they were made. Where versions go
up along the revisions, the last one of a type is therefore the one with the highest version
(`exists_latest`), and `Store.applyLatest` makes it current. Every other type is taken away from the
service and left as it is where another service owns it (`get?_appliedVersions_of_other`). Then
there is nothing left to do (`appliedVersions_again`).
-/

namespace ClusterUpgrade.Store

open Operation

variable {s : Store} {stack : StackId} {service type : String} {r : Revision}

/-! ## Versions that go up -/

/-- Versions go up along the revisions. -/
def Ascending (s : Store) : Prop := s.revisions.Pairwise fun a b => a.version.below b.version = true

instance (s : Store) : Decidable s.Ascending :=
  inferInstanceAs (Decidable (s.revisions.Pairwise _))

theorem Ascending.toldApart (h : s.Ascending) : s.ToldApart := h.imp Number.not_same_of_below

/-- Versions that tell revisions apart find each revision by its own. -/
theorem ToldApart.revision?_eq (h : s.ToldApart) (mem : r ∈ s.revisions)
    (number : r.version ≠ .notANumber) : s.revision? r.version = some r := by
  obtain ⟨before, later, split⟩ := List.append_of_mem mem
  unfold ToldApart at h
  rw [split, List.pairwise_append] at h
  have earlier : before.find? (·.version.same r.version) = none := by
    rw [List.find?_eq_none]
    intro r' mem'
    simp [h.2.2 r' mem' r List.mem_cons_self]
  have itself : r.version.same r.version = true := Number.same_self number
  rw [revision?, split, List.find?_append, earlier, Option.none_or, List.find?_cons, itself]

/-! ## The latest revision of a type -/

/-- A revision with the highest version that a service has of a type on a stack. -/
structure IsLatest (s : Store) (stack : StackId) (service type : String) (r : Revision) : Prop where
  mem : r ∈ s.revisionsOn stack service
  type_eq : r.type = type
  highest : ∀ r' ∈ s.revisionsOn stack service, r'.type = type →
    r' = r ∨ r'.version.below r.version = true

/-- A type of which a service has a revision on a stack has a latest one, whose version is the one
that is taken. -/
theorem exists_latest (ascending : s.Ascending) (mem : r ∈ s.revisionsOn stack service)
    (htype : r.type = type) : ∃ latest, s.IsLatest stack service type latest ∧
      (s.latestVersions stack service).get? type = some latest.version := by
  have mem_of_type : r ∈ (s.revisionsOn stack service).filter (·.type = type) :=
    List.mem_filter.2 ⟨mem, decide_eq_true htype⟩
  obtain ⟨latest, hlast⟩ : ∃ latest, ((s.revisionsOn stack service).filter
      (·.type = type)).getLast? = some latest := by
    rw [← Option.isSome_iff_exists, List.getLast?_isSome]
    exact List.ne_nil_of_mem mem_of_type
  obtain ⟨hmem, hlatest⟩ := List.mem_filter.1 (List.mem_of_getLast? hlast)
  refine ⟨latest, ⟨hmem, of_decide_eq_true hlatest, ?_⟩, ?_⟩
  · -- All revisions of the type but the last one stand before it.
    intro r' mem' htype'
    have among : r' ∈ (s.revisionsOn stack service).filter (·.type = type) :=
      List.mem_filter.2 ⟨mem', decide_eq_true htype'⟩
    have sorted : ((s.revisionsOn stack service).filter (·.type = type)).Pairwise
        fun a b => a.version.below b.version = true :=
      (List.Pairwise.filter _ ascending).filter _
    obtain ⟨before, split⟩ := List.getLast?_eq_some_iff.1 hlast
    rw [split] at among sorted
    rcases List.mem_append.1 among with earlier | last
    · exact Or.inr ((List.pairwise_append.1 sorted).2.2 r' earlier latest List.mem_cons_self)
    · exact Or.inl (List.mem_singleton.1 last)
  · rw [latestVersions_eq, Record.get?_foldl_insert Revision.type Revision.version, hlast]
    rfl

theorem get?_latestVersions_eq_none (absent : ∀ r ∈ s.revisionsOn stack service, r.type ≠ type) :
    (s.latestVersions stack service).get? type = none := by
  rw [Option.eq_none_iff_forall_ne_some]
  intro v hv
  obtain ⟨r, mem, htype, -⟩ := exists_of_get?_latestVersions hv
  exact absent r mem htype

/-! ## What is current afterwards -/

/-- A type that is not among the latest is left to its owner, unless that is the service itself. -/
theorem get?_appliedVersions_of_other
    (absent : ∀ r ∈ s.revisionsOn stack service, r.type ≠ type) :
    (s.appliedVersions stack service).get? type =
      if s.ownedBy service type then none else s.current.get? type := by
  cases taken : Reserved.takes s.current type with
  | true => rw [get?_appliedVersions taken, get?_latestVersions_eq_none absent, Option.none_or]
  | false =>
    rw [get?_appliedVersions_of_not_takes taken, Reserved.get?_eq_none_of_not_takes taken, ite_self]

/-- What can be written afterwards could be written before. -/
theorem takes_of_takes_appliedVersions
    (h : Reserved.takes (s.appliedVersions stack service) type = true) :
    Reserved.takes s.current type = true := by
  by_contra left
  have none : (s.appliedVersions stack service).get? type = none :=
    get?_appliedVersions_of_not_takes (eq_false_of_ne_true left)
  simp_all [Reserved.takes, Record.has]

theorem ownedBy_of_currentRevision? (h : s.currentRevision? type = some r) :
    s.ownedBy service type = decide (r.service = service) := by
  rw [ownedBy, h, Option.any_some]

/-- The service owns nothing afterwards but its latest types. -/
theorem ownedBy_appliedVersions (absent : ∀ r ∈ s.revisionsOn stack service, r.type ≠ type) :
    ownedBy { s with current := s.appliedVersions stack service } service type = false := by
  have current := get?_appliedVersions_of_other absent
  unfold ownedBy currentRevision?
  rw [current]
  cases owned : s.ownedBy service type with
  | true => rfl
  | false => exact owned

/-- Applying the latest revisions again changes nothing. -/
theorem appliedVersions_again (s : Store) (stack : StackId) (service : String) :
    appliedVersions { s with current := s.appliedVersions stack service } stack service =
      s.appliedVersions stack service := by
  have latest : latestVersions { s with current := s.appliedVersions stack service } stack service =
      s.latestVersions stack service := rfl
  -- What the service still owns is among the latest, so no type is taken away,
  rw [appliedVersions, latest, Record.filterKeys_eq_self]
  · -- and what is written is there already.
    refine Record.overlay_eq_self fun e mem => ?_
    obtain ⟨mem, taken⟩ := List.mem_filter.1 mem
    rw [get?_appliedVersions (takes_of_takes_appliedVersions taken),
      Record.get?_eq_some_iff.2 mem, Option.some_or]
  · intro type _
    cases taken : (s.latestVersions stack service).has type with
    | true => simp
    | false =>
      rw [has_latestVersions, decide_eq_false_iff_not, List.mem_map] at taken
      have absent : ∀ r ∈ s.revisionsOn stack service, r.type ≠ type :=
        fun r mem htype => taken ⟨r, mem, htype⟩
      rw [ownedBy_appliedVersions absent]
      rfl

/-! ## The request -/

theorem run_applyLatest_of_none
    (none_there : ∀ r ∈ s.revisions, ¬ (r.service = service ∧ r.stack = stack.text)) :
    run (Request.operation (.applyLatest stack service)) s =
      ⟨s, [], .error (.noRevisions service stack.text)⟩ := by
  rw [Request.operation, Request.run_writes, applyLatest_eq_error_iff.2 ⟨none_there, rfl⟩]

theorem run_applyLatest_of_some
    (some_there : ∃ r ∈ s.revisions, r.service = service ∧ r.stack = stack.text) :
    run (Request.operation (.applyLatest stack service)) s =
      ⟨{ s with current := s.appliedVersions stack service }, [], .ok .done⟩ := by
  rw [Request.operation, Request.run_writes, applyLatest_eq_ok_iff.2 ⟨some_there, rfl⟩]

/-- A second request finds everything in place. -/
theorem run_applyLatest_again
    (some_there : ∃ r ∈ s.revisions, r.service = service ∧ r.stack = stack.text) :
    let applied := { s with current := s.appliedVersions stack service }
    run (Request.operation (.applyLatest stack service)) applied = ⟨applied, [], .ok .done⟩ := by
  intro applied
  have again : applied.appliedVersions stack service = s.appliedVersions stack service :=
    appliedVersions_again s stack service
  rw [run_applyLatest_of_some (s := applied) some_there, again]

/-- **Latest configurations.** Where versions go up along the revisions, the request to make the
latest configurations of a service on a stack current fails exactly if the service has no revision
there, and then changes nothing. Otherwise each type that it has there is current by the revision
with the highest version, unless nothing can be written under the name of the type. Any other type
that the service owned is no longer current, and the rest stays as it is. Nothing but what is
current changes, and a second request changes nothing at all. -/
theorem latest_made_current (ascending : s.Ascending) (stack : StackId) (service : String) :
    let request : Request := .applyLatest stack service
    let o := run request.operation s
    o = run request.inSteps s ∧
    ((∀ r ∈ s.revisions, ¬ (r.service = service ∧ r.stack = stack.text)) →
      o.result = .error (.noRevisions service stack.text) ∧ o.store = s) ∧
    ((∃ r ∈ s.revisions, r.service = service ∧ r.stack = stack.text) →
      o.result = .ok .done ∧
      (∀ type, (∃ r ∈ s.revisionsOn stack service, r.type = type) →
        ∃ r, s.IsLatest stack service type r ∧
          (o.store.current.get? type = some r.version ↔ Reserved.takes s.current type = true) ∧
          (Reserved.takes s.current type = true → r.version ≠ .notANumber →
            o.store.currentRevision? type = some r)) ∧
      (∀ type, (∀ r ∈ s.revisionsOn stack service, r.type ≠ type) →
        o.store.current.get? type =
          (if s.ownedBy service type then none else s.current.get? type) ∧
        ∀ r, o.store.currentRevision? type = some r → r.service ≠ service) ∧
      o.store = { s with current := o.store.current } ∧
      run request.operation o.store = ⟨o.store, [], .ok .done⟩) := by
  intro request o
  refine ⟨(congrFun (Request.inSteps_eq request) s).symm, fun none_there => ?_,
    fun some_there => ?_⟩
  · have ho : o = _ := run_applyLatest_of_none none_there
    rw [ho]
    exact ⟨rfl, rfl⟩
  have ho : o = _ := run_applyLatest_of_some some_there
  rw [ho]
  refine ⟨rfl, ?_, ?_, rfl, run_applyLatest_again some_there⟩
  · rintro type ⟨r, mem, htype⟩
    obtain ⟨latest, is_latest, hv⟩ := exists_latest ascending mem htype
    have current (taken : Reserved.takes s.current type = true) :
        (s.appliedVersions stack service).get? type = some latest.version := by
      rw [get?_appliedVersions taken, hv, Option.some_or]
    refine ⟨latest, is_latest, ⟨fun there => ?_, current⟩, fun taken number => ?_⟩
    · by_contra left
      rw [get?_appliedVersions_of_not_takes (eq_false_of_ne_true left)] at there
      cases there
    rw [currentRevision?, current taken]
    exact ascending.toldApart.revision?_eq (mem_revisionsOn.1 is_latest.mem).1 number
  · intro type absent
    refine ⟨get?_appliedVersions_of_other absent, fun r hr hservice => ?_⟩
    have owned := ownedBy_appliedVersions absent
    rw [ownedBy_of_currentRevision? hr, hservice, decide_eq_false_iff_not] at owned
    exact owned rfl

/-- After an upgrade that has given ZooKeeper two more types, one of them taken from another
service, ZooKeeper goes back to its old stack: its old type is current by the first revision again,
and the two others are gone. -/
theorem latest_made_current_sharedSite :
    let upgraded := Topology.sharedSite.store.createRevisions ⟨"HDP", "2.3"⟩ "ZOOKEEPER"
      (.ofList [("zoo.cfg", .empty), ("zookeeper-logs", .empty), ("hdfs-site", .empty)]) "admin" ""
    let request : Request := .applyLatest ⟨"HDP", "2.2"⟩ "ZOOKEEPER"
    let o := run request.operation upgraded
    upgraded.Ascending ∧ upgraded.current.get? "zoo.cfg" = some (.ofNat 3) ∧
    upgraded.current.get? "hdfs-site" = some (.ofNat 5) ∧
    o.result = .ok .done ∧ o.store.current.get? "zoo.cfg" = some (.ofNat 1) ∧
    o.store.current.get? "hdfs-site" = none ∧
    run request.operation o.store = ⟨o.store, [], .ok .done⟩ := by
  intro upgraded request o
  have ascending : upgraded.Ascending := by decide
  obtain ⟨-, -, done⟩ := latest_made_current ascending ⟨"HDP", "2.2"⟩ "ZOOKEEPER"
  obtain ⟨ok, -, others, -, again⟩ := done ⟨_, List.mem_cons_self, by decide⟩
  refine ⟨ascending, by decide, by decide, ok, by decide, ?_, again⟩
  rw [(others "hdfs-site" (by decide)).1]
  decide

/-- A revision of a type under whose name nothing can be written is the latest one of its service,
and yet it is not current afterwards. -/
theorem latest_not_current_recordName :
    let revision : Revision :=
      { type := Reserved.recordName, service := "ZOOKEEPER", stack := "HDP-2.2", tag := "version1"
        version := .ofNat 1, properties := .empty, actor := none, comment := none }
    let s : Store := { Topology.sharedSite.store with revisions := [revision], current := .empty }
    let o := run (Request.operation (.applyLatest ⟨"HDP", "2.2"⟩ "ZOOKEEPER")) s
    s.Ascending ∧ s.IsLatest ⟨"HDP", "2.2"⟩ "ZOOKEEPER" Reserved.recordName revision ∧
    o.result = .ok .done ∧ o.store.current.get? Reserved.recordName = none :=
  ⟨by decide, ⟨by decide, rfl, by decide⟩, rfl, by decide⟩

end ClusterUpgrade.Store
