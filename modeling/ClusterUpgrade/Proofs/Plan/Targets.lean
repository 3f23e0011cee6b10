import ClusterUpgrade.Proofs.Plan.Walk
import ClusterUpgrade.Proofs.Stage
import ClusterUpgrade.Proofs.Topology

/-!
# The hosts that a plan targets

Whatever a standard or function group assigns is assigned for one task of one component, or is a
check (`perm_assignments_planGrouping`). The hosts of a task are the hosts that the resolver gives,
unless the component is a NameNode that is taken by its roles: then they are its active and its
standby instance, whether these are among the resolved hosts or not. So a plan targets just the
resolved hosts exactly when the roles name just these (`targets_exact_iff`).
-/

namespace ClusterUpgrade.Plan

open Stage

section Targets

variable (run : UpgradeRun) (site : Site) (pack : Pack)

instance (g : Grouping) (s c : String) (hosts : HostGroup) (p : Processing) :
    Decidable (Ready run site pack g s c hosts p) :=
  decidable_of_iff ((run.isRolling → pack.processing.finds s c) ∧
    site.hosts.resolve? s c = some hosts ∧ hosts.hosts ≠ [] ∧
    pack.processing.resolve? s c g.kind.function? = some p)
    ⟨fun ⟨h₁, h₂, h₃, h₄⟩ => ⟨h₁, h₂, h₃, h₄⟩, fun ⟨h₁, h₂, h₃, h₄⟩ => ⟨h₁, h₂, h₃, h₄⟩⟩

/-! ## What is planned for a task -/

/-- A component of a standard or function grouping that hands work over. -/
structure Planned (g : Grouping) (service component : String) (hosts : HostGroup) (p : Processing)
    (ws : List Work) : Prop where
  listed : g ∈ pack.groupings run.direction
  applies : Applies run site g
  staged : g.kind ≠ .serviceCheck
  place : .component service component ∈ walk run pack g
  ready : Ready run site pack g service component hosts p
  hands : HandsOver run site service component hosts p ws

/-- The tasks of a component, less those that need a daemon which clients do not have. -/
def keptTasks (service : String) (p : Processing) : List Task :=
  p.tasks.filter fun t => !(clientsOnly site service && t.kind.needsDaemon)

/-- What a grouping assigns for one task of a component. -/
def assignedFor (g : Grouping) (ws : List Work) (t : Task) : List Assignment :=
  ws.flatMap fun w => assignmentsOf g.kind run.orchestration w t

/-- What a grouping assigns for the tasks of its places, place by place. -/
def assignedInAll (g : Grouping) (outcomes : List Outcome) : List Assignment :=
  outcomes.flatMap fun o => o.works.flatMap fun w =>
    w.kept.flatMap (assignmentsOf g.kind run.orchestration w)

/-- What a grouping assigns for its checks. -/
def assignedForChecks (g : Grouping) (outcomes : List Outcome) : List Assignment :=
  (addedChecks (PlanGroup.checksServices run g) (outcomes.flatMap Outcome.works)).flatMap
    (·.assignments)

/-- The hosts that a grouping targets for one task of a component. -/
def targets (g : Grouping) (ws : List Work) (t : Task) : List String :=
  (assignedFor run g ws t).flatMap (·.hosts)

/-- For every task that is not left out, a plan targets the hosts that the resolver gives. -/
def TargetsExact : Prop :=
  ∀ g service component hosts p ws, Planned run site pack g service component hosts p ws →
    ∀ t ∈ keptTasks site service p, ∀ host, host ∈ targets run g ws t ↔ host ∈ hosts.hosts

/-- No task is planned on a host that is reported unhealthy for its component. -/
def TargetsHealthy : Prop :=
  ∀ g service component hosts p ws, Planned run site pack g service component hosts p ws →
    ∀ t ∈ keptTasks site service p, ∀ host ∈ targets run g ws t, host ∉ hosts.unhealthy

/-! ## Roles -/

/-- A NameNode that is taken by its roles. -/
def ByRole (service component : String) (hosts : HostGroup) : Prop :=
  isNameNode service component ∧ hosts.master.isSome ∧ hosts.secondary.isSome ∧
    (run.orchestration = .rolling ∨ run.orchestration = .nonRolling ∧ site.hosts.namenodeHA)

instance (service component : String) (hosts : HostGroup) :
    Decidable (ByRole run site service component hosts) :=
  inferInstanceAs (Decidable (_ ∧ _))

/-- The roles of a host group name just its hosts. -/
def RolesFit (hosts : HostGroup) : Prop :=
  (∀ host ∈ hosts.hosts, hosts.master = some host ∨ hosts.secondary = some host) ∧
    (∀ active ∈ hosts.master, active ∈ hosts.hosts) ∧
    ∀ standby ∈ hosts.secondary, standby ∈ hosts.hosts

instance : DecidablePred RolesFit := fun _ => inferInstanceAs (Decidable (_ ∧ _))

/-- A place is a NameNode whose roles name just its hosts, or is not taken by roles for any task. -/
def PlaceFits (g : Grouping) : Place → Prop
  | .service _ => True
  | .component s c => ∀ hosts ∈ site.hosts.resolve? s c,
    ∀ p ∈ pack.processing.resolve? s c g.kind.function?, Ready run site pack g s c hosts p →
      keptTasks site s p ≠ [] → ByRole run site s c hosts → RolesFit hosts

instance (g : Grouping) : DecidablePred (PlaceFits run site pack g)
  | .service _ => isTrue trivial
  | .component s c => inferInstanceAs (Decidable (∀ hosts ∈ site.hosts.resolve? s c,
    ∀ p ∈ pack.processing.resolve? s c g.kind.function?, Ready run site pack g s c hosts p →
      keptTasks site s p ≠ [] → ByRole run site s c hosts → RolesFit hosts))

/-- The roles of every NameNode that has something to do name just the hosts that are resolved for
it. -/
def RolesExact : Prop :=
  ∀ g ∈ pack.groupings run.direction, Applies run site g → g.kind ≠ .serviceCheck →
    ∀ place ∈ walk run pack g, PlaceFits run site pack g place

instance : Decidable (RolesExact run site pack) := by unfold RolesExact; infer_instance

end Targets

variable {run : UpgradeRun} {site : Site} {pack : Pack} {g : Grouping} {s c host : String}
  {hosts : HostGroup} {p : Processing} {ws : List Work} {w : Work} {t : Task}

theorem RolesFit.iff (fit : RolesFit hosts) :
    host ∈ hosts.hosts ↔ hosts.master = some host ∨ hosts.secondary = some host := by
  obtain ⟨named, active, standby⟩ := fit
  constructor
  · exact named host
  · rintro (h | h)
    · exact active host h
    · exact standby host h

theorem rolesFit_of_iff (h : ∀ host, host ∈ hosts.hosts ↔
    hosts.master = some host ∨ hosts.secondary = some host) : RolesFit hosts :=
  ⟨fun host mem => (h host).1 mem, fun host active => (h host).2 (Or.inl active),
    fun host standby => (h host).2 (Or.inr standby)⟩

/-! ## The hosts of the work -/

theorem HandsOver.kept_eq (h : HandsOver run site s c hosts p ws) (mem : w ∈ ws) :
    w.kept = keptTasks site s p := by
  cases h with
  | standbyFirst | whole =>
    rw [List.mem_singleton.1 mem]
    rfl
  | inRoles =>
    rcases List.mem_pair.1 mem with rfl | rfl <;> rfl

/-- Taken by its roles, a NameNode has the hosts of its two instances. -/
theorem HandsOver.host_iff_of_byRole (h : HandsOver run site s c hosts p ws)
    (byRole : ByRole run site s c hosts) :
    (∃ w ∈ ws, host ∈ w.hosts) ↔ hosts.master = some host ∨ hosts.secondary = some host := by
  obtain ⟨namenode, known, known', role⟩ := byRole
  cases h with
  | @standbyFirst active standby _ _ hactive hstandby =>
    rw [hactive, hstandby]
    simp only [List.mem_singleton, exists_eq_left, workOn, Option.some.injEq]
    split_ifs with same
    · simp [same, eq_comm]
    · simp [eq_comm, or_comm]
  | inRoles _ _ _ hactive hstandby =>
    rw [hactive, hstandby]
    simp [workOn, eq_comm]
  | whole alone =>
    rcases alone with other | ordered | ⟨still, unpaired⟩
    · exact absurd namenode other
    · simp [ordered] at role
    · have available : site.hosts.namenodeHA = true := by simpa [still] using role
      exact absurd ⟨available, known, known'⟩ unpaired

/-- Any other component has the hosts that the resolver gives. -/
theorem HandsOver.host_iff (h : HandsOver run site s c hosts p ws)
    (whole : ¬ ByRole run site s c hosts) :
    (∃ w ∈ ws, host ∈ w.hosts) ↔ host ∈ hosts.hosts := by
  cases h with
  | standbyFirst namenode rolling hactive hstandby =>
    exact absurd ⟨namenode, by rw [hactive]; rfl, by rw [hstandby]; rfl, Or.inl rolling⟩ whole
  | inRoles namenode still available hactive hstandby =>
    exact absurd ⟨namenode, by rw [hactive]; rfl, by rw [hstandby]; rfl,
      Or.inr ⟨still, available⟩⟩ whole
  | whole => simp [workOn]

theorem mem_targets (staged : g.kind ≠ .serviceCheck) :
    host ∈ targets run g ws t ↔ ∃ w ∈ ws, host ∈ w.hosts := by
  simp only [targets, assignedFor, List.flatMap_assoc, List.mem_flatMap,
    exists_host_assignmentsOf staged]

/-! ## Whole groups -/

/-- The assignments of a grouping that is walked: each is made for a task of one of its places, or
is a check. -/
theorem perm_assignments_planGrouping (staged : g.kind ≠ .serviceCheck)
    (applies : Applies run site g) : ∃ outcomes,
    List.Forall₂ (Accounted run site pack g) (walk run pack g) outcomes ∧
      ((planGrouping run site pack g).stages.flatMap (·.assignments)).Perm
        ((assignedInAll run g outcomes ++ assignedForChecks run g outcomes).map
          (PlanGroup.renderedAssignment run site)) := by
  obtain ⟨outcomes, places, staged_eq⟩ := stages_planGrouping pack applies
  refine ⟨outcomes, places, ?_⟩
  have made : ((outcomes.flatMap Outcome.works).flatMap fun w =>
      w.kept.flatMap (assignmentsOf g.kind run.orchestration w)) =
      assignedInAll run g outcomes := List.flatMap_assoc
  have rendered (stages : List Stage) :
      (stages.map (PlanGroup.renderedStage run site)).flatMap (·.assignments) =
        (stages.flatMap (·.assignments)).map (PlanGroup.renderedAssignment run site) := by
    rw [List.flatMap_map, List.map_flatMap]
    rfl
  rw [staged_eq, rendered, ← made]
  exact (perm_assignments_ofWork staged).map _

theorem healthy_of_resolve {table : HostTable} (h : table.resolver.resolve? s c = some hosts) :
    ∀ host ∈ hosts.hosts, host ∉ hosts.unhealthy := by
  obtain ⟨entry, -, rfl⟩ := Option.map_eq_some_iff.1 h
  intro host mem
  exact of_decide_eq_true (List.mem_filter.1 mem).2

theorem rolesExact_of_targetsExact (exact : TargetsExact run site pack) :
    RolesExact run site pack := by
  intro g listed applies staged place mem
  cases place with
  | service => trivial
  | component s c =>
    intro hosts _ p _ ready kept byRole
    have handed : ∃ ws, HandsOver run site s c hosts p ws := by
      refine exists_handsOver ?_
      rintro ⟨-, -, unknown | unknown⟩
      · simpa [unknown] using byRole.2.1
      · simpa [unknown] using byRole.2.2.1
    obtain ⟨ws, hands⟩ := handed
    -- Any task that is left to do tells the targets.
    obtain ⟨t, ht⟩ := List.exists_mem_of_ne_nil _ kept
    have exact_t := exact g s c hosts p ws ⟨listed, applies, staged, mem, ready, hands⟩ t ht
    refine rolesFit_of_iff fun host => ?_
    rw [← exact_t host, mem_targets staged]
    exact hands.host_iff_of_byRole byRole

theorem targetsExact_of_rolesExact (exact : RolesExact run site pack) :
    TargetsExact run site pack := by
  intro g s c hosts p ws planned t mem host
  rw [mem_targets planned.staged]
  by_cases byRole : ByRole run site s c hosts
  · have fit : RolesFit hosts := exact g planned.listed planned.applies planned.staged _
      planned.place hosts planned.ready.resolved p planned.ready.processed planned.ready
      (List.ne_nil_of_mem mem) byRole
    rw [planned.hands.host_iff_of_byRole byRole, fit.iff]
  · exact planned.hands.host_iff byRole

/-- **The hosts of a plan.** What the standard and function groups of a plan assign is assigned for
the tasks of their places that are not left out, checks apart. For every task these are the hosts
that the resolver gives exactly when the roles of every NameNode with something to do name just the
hosts resolved for it; and then no task is planned on an unhealthy host. -/
theorem targets_exact_iff (run : UpgradeRun) (t : Topology) (pack : Pack) :
    (∀ g ∈ pack.groupings run.direction, g.kind ≠ .serviceCheck → Applies run t.site g →
      ∃ outcomes, List.Forall₂ (Accounted run t.site pack g) (walk run pack g) outcomes ∧
        ((planGrouping run t.site pack g).stages.flatMap (·.assignments)).Perm
          ((assignedInAll run g outcomes ++ assignedForChecks run g outcomes).map
            (PlanGroup.renderedAssignment run t.site))) ∧
    (∀ g service component hosts p ws, Planned run t.site pack g service component hosts p ws →
      ∀ w ∈ ws, w.kept = keptTasks t.site service p) ∧
    (TargetsExact run t.site pack ↔ RolesExact run t.site pack) ∧
    (TargetsExact run t.site pack → TargetsHealthy run t.site pack) := by
  refine ⟨fun g _ staged applies => perm_assignments_planGrouping staged applies,
    fun g s c hosts p ws planned w mem => planned.hands.kept_eq mem,
    ⟨rolesExact_of_targetsExact, targetsExact_of_rolesExact⟩, ?_⟩
  intro exact g s c hosts p ws planned task kept host target
  refine healthy_of_resolve planned.ready.resolved host ?_
  exact (exact g s c hosts p ws planned task kept host).1 target

/-! ## A pair of NameNodes -/

/-- A NameNode with an active and a standby instance. -/
def nameNodePair (unhealthy : List String) : Topology :=
  { Topology.sharedSite with
    namenodeHA := true
    services := [⟨"HDFS", none, false, none,
      [⟨"NAMENODE", none, true, ⟨["h1", "h2"], some "h1", some "h2", unhealthy⟩⟩]⟩] }

/-- A pack that restarts the NameNode. -/
def restartNameNode : Pack where
  name := "rolling"
  orchestration := .rolling
  targetStack := "HDP-2.3"
  upgrade := [
    { name := "MASTERS", title := "Masters", scope := .any, condition := none, skippable := false
      allowRetry := true, supportsAutoSkip := true, performServiceCheck := false
      services := [⟨"HDFS", ["NAMENODE"]⟩], kind := .standard }]
  downgrade := none
  processing := .ofList [("HDFS", .ofList [("NAMENODE", ⟨"NAMENODE", [⟨.restart, none⟩]⟩)])]

/-- The rolling run of a pair of NameNodes. -/
def pairRun : UpgradeRun :=
  .ofServices .upgrade .rolling .complete ⟨"2.3.0.0", ⟨"HDP", "2.3"⟩⟩
    (.ofList [("HDFS", ⟨"2.2.0.0", ⟨"HDP", "2.2"⟩⟩)])
    (.ofList [("HDFS", ⟨"2.3.0.0", ⟨"HDP", "2.3"⟩⟩)]) ["HDFS"]

theorem run_nameNodePair (unhealthy : List String) :
    (nameNodePair unhealthy).run ⟨.upgrade, .rolling, none, "2.3.0.0", none⟩ = .ok pairRun := rfl

theorem targets_exact_on_healthy_pair :
    TargetsExact pairRun (nameNodePair []).site restartNameNode ∧
    (Plan.of pairRun (nameNodePair []).site restartNameNode).groups ≠ [] := by
  refine ⟨?_, by decide +kernel⟩
  exact (targets_exact_iff _ _ _).2.2.1.2 (by decide +kernel)

/-- With the active instance unhealthy, only the standby is resolved; but both are restarted. -/
theorem targets_unhealthy_active :
    (nameNodePair ["h1"]).run ⟨.upgrade, .rolling, none, "2.3.0.0", none⟩ = .ok pairRun ∧
    ((nameNodePair ["h1"]).hosts.resolve? "HDFS" "NAMENODE").map (·.hosts) = some ["h2"] ∧
    ((Plan.of pairRun (nameNodePair ["h1"]).site restartNameNode).groups.flatMap (·.stages)).map
      (fun s => (s.kind, s.assignments.map (·.hosts))) =
        [(.restart, [["h2"]]), (.restart, [["h1"]])] ∧
    ¬ TargetsExact pairRun (nameNodePair ["h1"]).site restartNameNode := by
  refine ⟨run_nameNodePair _, by decide +kernel, by decide +kernel, fun exact => ?_⟩
  exact absurd (rolesExact_of_targetsExact exact) (by decide +kernel)

end ClusterUpgrade.Plan
