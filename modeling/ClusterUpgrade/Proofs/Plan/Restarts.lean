import ClusterUpgrade.Proofs.Hosts
import ClusterUpgrade.Proofs.Plan.Rolling
import Mathlib.Data.List.Flatten

/-!
# Hosts that are restarted once

A rolling run restarts a component on each host that its place hands over, one stage after the other
(`targets_eq`). The two instances of a NameNode are told apart there, but the hosts of any other
component are taken as the resolver gives them. So no host is restarted twice for one task exactly
when the resolver gives no host twice (`restartsOnce_iff`), and for the hosts of a topology it is
the topology that decides (`no_host_twice_iff`).
-/

namespace ClusterUpgrade.Plan

open Stage

section Restarts

variable (run : UpgradeRun) (site : Site) (pack : Pack)

/-- No host is restarted twice for one restart of a component. -/
def RestartsOnce : Prop :=
  ∀ g service component hosts p ws, Planned run site pack g service component hosts p ws →
    ∀ t ∈ keptTasks site service p, t.kind = .restart → (targets run g ws t).Nodup

end Restarts

variable {run : UpgradeRun} {site : Site} {pack : Pack} {g : Grouping} {s c : String}
  {hosts : HostGroup} {p : Processing} {ws : List Work} {t : Task}

/-! ## What is planned is in the plan -/

theorem sublist_flatMap_of_mem {α β : Type} (f : α → List β) {a : α} {l : List α} (mem : a ∈ l) :
    (f a).Sublist (l.flatMap f) := by
  simpa using (List.singleton_sublist.2 mem).flatMap f

/-- The stages of a grouping hold what is assigned for a task. -/
theorem Planned.subperm_assignedFor (planned : Planned run site pack g s c hosts p ws)
    (kept : t ∈ keptTasks site s p) :
    ((assignedFor run g ws t).map (PlanGroup.renderedAssignment run site)).Subperm
      ((planGrouping run site pack g).stages.flatMap (·.assignments)) := by
  obtain ⟨outcomes, places, perm⟩ : ∃ outcomes,
      List.Forall₂ (Accounted run site pack g) (walk run pack g) outcomes ∧ _ :=
    perm_assignments_planGrouping planned.staged planned.applies
  -- The place of the component comes to its work, and to nothing else.
  obtain ⟨before, after, walked⟩ := List.append_of_mem planned.place
  rw [walked] at places
  obtain ⟨outcomes, o, outcomes', rfl, -, here, -⟩ := exists_of_forall₂_at places
  have accounted : Accounted run site pack g (.component s c) (.handed ws) :=
    .handed planned.ready planned.hands
  obtain rfl := here.comesTo.unique accounted.comesTo
  have handed : (.handed ws : Outcome) ∈ outcomes ++ .handed ws :: outcomes' := by simp
  have ofTask : (assignedFor run g ws t).Sublist
      (ws.flatMap fun w => w.kept.flatMap (assignmentsOf g.kind run.orchestration w)) := by
    refine List.Sublist.flatMap_right _ fun w mem => ?_
    exact sublist_flatMap_of_mem _ ((planned.hands.kept_eq mem).symm ▸ kept)
  have ofPlace := sublist_flatMap_of_mem (fun o : Outcome => o.works.flatMap fun w =>
    w.kept.flatMap (assignmentsOf g.kind run.orchestration w)) handed
  have inAll := (ofTask.trans ofPlace).trans
    (List.sublist_append_left _ (assignedForChecks run g (outcomes ++ .handed ws :: outcomes')))
  exact (inAll.map _).subperm.trans perm.symm.subperm

/-! ## Restarts -/

/-- The targets of a task are the hosts of the work, in order. -/
theorem targets_eq (staged : g.kind ≠ .serviceCheck) :
    targets run g ws t = ws.flatMap (·.hosts) := by
  rw [targets, assignedFor, List.flatMap_assoc]
  refine List.flatMap_congr fun w _ => ?_
  unfold assignmentsOf
  cases hk : g.kind with
  | standard =>
    unfold ofTaskRolling
    dsimp only
    split_ifs
    · simp [ofTask, Work.assign, List.flatMap_map, List.flatMap_assoc]
    · simp [ofTask, Work.assign]
  | function f => simp [Work.assign]
  | serviceCheck => exact absurd hk staged

/-- In a rolling run a component is taken on different hosts if it is a NameNode that is taken by
its roles, or if the resolver gives different hosts. -/
theorem HandsOver.nodup_iff (h : HandsOver run site s c hosts p ws) (rolling : run.isRolling) :
    (ws.flatMap (·.hosts)).Nodup ↔ (ByRole run site s c hosts ∨ hosts.hosts.Nodup) := by
  have order := orchestration_of_isRolling rolling
  cases h with
  | @standbyFirst active standby namenode _ hactive hstandby =>
    refine iff_of_true ?_ (Or.inl ⟨namenode, by simp [hactive], by simp [hstandby], Or.inl order⟩)
    by_cases same : standby = active <;> simp [workOn, same]
  | inRoles _ still => simp [order] at still
  | whole alone =>
    have whole : ¬ ByRole run site s c hosts := by
      rintro ⟨namenode, -⟩
      rcases alone with other | ordered | ⟨still, -⟩
      · exact other namenode
      · simp [order] at ordered
      · simp [order] at still
    simp [workOn, whole]

/-- A rolling run restarts no host twice exactly when the resolver gives no host twice for any
component with a restart to do, NameNodes that are taken by their roles apart. -/
theorem restartsOnce_iff (rolling : run.isRolling) : RestartsOnce run site pack ↔
    ∀ g service component hosts p ws, Planned run site pack g service component hosts p ws →
      (∃ t ∈ keptTasks site service p, t.kind = .restart) →
      ByRole run site service component hosts ∨ hosts.hosts.Nodup := by
  constructor
  · rintro once g s c hosts p ws planned ⟨t, kept, restarts⟩
    have nodup := once g s c hosts p ws planned t kept restarts
    rw [targets_eq planned.staged] at nodup
    exact (planned.hands.nodup_iff rolling).1 nodup
  · intro each g s c hosts p ws planned t kept restarts
    rw [targets_eq planned.staged]
    exact (planned.hands.nodup_iff rolling).2 (each g s c hosts p ws planned ⟨t, kept, restarts⟩)

/-- Where the topology names hosts once, every answer of its host table does. -/
theorem nodup_of_namedOnce {t : Topology} (once : t.NamedOnce)
    (resolved : t.hosts.resolve? s c = some hosts) : hosts.hosts.Nodup := by
  rw [Topology.resolve?_eq] at resolved
  obtain ⟨placement, answers, rfl⟩ := Option.map_eq_some_iff.1 resolved
  obtain ⟨x, hx, y, hy, key, -⟩ := Topology.exists_of_answering answers
  exact (once x hx y hy placement (Topology.answering_congr key ▸ answers)).1

/-- **No host twice.** Every component of a topology has an answer in its host table, unless nothing
can be written under the name of its service; no answer has an unhealthy host, and whatever a plan
assigns for a task is in its stages. The answers have the hosts in declared order and each once, and
no rolling run restarts a host twice for one restart of a component, exactly when the topology names
the healthy hosts of what answers once and in that order; where components are written apart, that
is when each of them names its healthy hosts once. -/
theorem no_host_twice_iff (t : Topology) :
    (∀ s ∈ t.services, ∀ c ∈ s.components,
      (Reserved.isWritable s.name = true → (t.hosts.resolve? s.name c.name).isSome = true) ∧
      ∀ g, t.hosts.resolve? s.name c.name = some g → ∀ host ∈ g.hosts, host ∉ g.unhealthy) ∧
    (∀ run pack g service component hosts p ws,
      Planned run t.site pack g service component hosts p ws →
      ∀ task ∈ keptTasks t.site service p,
        ((assignedFor run g ws task).map (PlanGroup.renderedAssignment run t.site)).Subperm
          ((planGrouping run t.site pack g).stages.flatMap (·.assignments))) ∧
    ((t.HostsInOrder ∧ ∀ run pack, run.isRolling → RestartsOnce run t.site pack) ↔ t.NamedOnce) ∧
    (t.NamesWritable → t.KeysApart → (t.NamedOnce ↔
      ∀ s ∈ t.services, ∀ c ∈ s.components, c.placement.group.hosts.Nodup)) := by
  refine ⟨?_, ?_, ?_, ?_⟩
  · intro s hs c hc
    rw [Topology.resolve?_eq, Option.isSome_map]
    refine ⟨fun writable => ?_, fun group given => ?_⟩
    · obtain ⟨placement, answers⟩ := Topology.exists_answering hs writable hc
      exact Option.isSome_of_mem answers
    · obtain ⟨placement, -, rfl⟩ := Option.map_eq_some_iff.1 given
      exact placement.healthy_group
  · intro run pack g s c hosts p ws planned task kept
    exact planned.subperm_assignedFor kept
  · rw [Topology.hostsInOrder_iff]
    refine and_iff_left_of_imp fun once run pack rolling => ?_
    refine (restartsOnce_iff rolling).2 fun g s c hosts p ws planned _ => ?_
    exact Or.inr (nodup_of_namedOnce once planned.ready.resolved)
  · intro writable apart
    refine forall₂_congr fun s hs => forall₂_congr fun c hc => ?_
    rw [apart.answering_eq hs (writable s hs) hc]
    constructor
    · intro once
      exact (once _ rfl).1
    · intro nodup q hq
      obtain rfl := Option.some.inj hq
      exact ⟨nodup, c.placement.hosts_group_sublist⟩

/-! ## A host that is named twice -/

/-- The document of a cluster with one component on some hosts, of which `h3` is unhealthy. -/
def dataNodeDocument (hosts : List String) : Document :=
  .record [("clusterName", .text "c1"), ("stack", .text "HDP-2.2"),
    ("currentVersion", .text "2.2.0.0"),
    ("repositoryVersions", .list
      [.record [("version", .text "2.2.0.0"), ("stack", .text "HDP-2.2")],
        .record [("version", .text "2.3.0.0"), ("stack", .text "HDP-2.3")]]),
    ("services", .record [("HDFS", .record [("components", .record [("DATANODE", .record
      [("hosts", .texts hosts), ("unhealthy", .texts ["h3"])])])])])]

/-- The cluster of the document. -/
def dataNodes (hosts : List String) : Topology where
  clusterName := "c1"
  securityType := .none
  stack := ⟨"HDP", "2.2"⟩
  namenodeHA := false
  currentVersion := "2.2.0.0"
  repositoryVersions := [⟨"2.2.0.0", ⟨"HDP", "2.2"⟩⟩, ⟨"2.3.0.0", ⟨"HDP", "2.3"⟩⟩]
  services := [⟨"HDFS", none, false, none, [⟨"DATANODE", none, true, ⟨hosts, none, none, ["h3"]⟩⟩]⟩]
  configurations := []
  stackDefaults := .empty

/-- A grouping with the component. -/
def dataNodeGrouping : Grouping where
  name := "SLAVES"
  title := "Slaves"
  scope := .any
  condition := none
  skippable := false
  allowRetry := true
  supportsAutoSkip := true
  performServiceCheck := false
  services := [⟨"HDFS", ["DATANODE"]⟩]
  kind := .standard

/-- A restart of the component. -/
def dataNodeRestart : Processing := ⟨"DATANODE", [⟨.restart, none⟩]⟩

/-- A pack that restarts the component. -/
def restartDataNode : Pack where
  name := "rolling"
  orchestration := .rolling
  targetStack := "HDP-2.3"
  upgrade := [dataNodeGrouping]
  downgrade := none
  processing := .ofList [("HDFS", .ofList [("DATANODE", dataNodeRestart)])]

/-- The hosts of the stages of a plan for the cluster. -/
def restartedHosts (hosts : List String) : List (List (List String)) :=
  ((Plan.of pairRun (dataNodes hosts).site restartDataNode).groups.flatMap (·.stages)).map
    fun s => s.assignments.map (·.hosts)

theorem resolve?_dataNodes (hosts : List String) :
    (dataNodes hosts).hosts.resolve? "HDFS" "DATANODE" =
      some (ComponentHosts.group ⟨hosts, none, none, ["h3"]⟩) := rfl

/-- The component is planned on its hosts that are not unhealthy. -/
theorem planned_dataNodes (hosts : List String)
    (hosted : (ComponentHosts.group ⟨hosts, none, none, ["h3"]⟩).hosts ≠ []) :
    Planned pairRun (dataNodes hosts).site restartDataNode dataNodeGrouping "HDFS" "DATANODE"
      (ComponentHosts.group ⟨hosts, none, none, ["h3"]⟩) dataNodeRestart
      [workOn (dataNodes hosts).site "HDFS" (ComponentHosts.group ⟨hosts, none, none, ["h3"]⟩).hosts
        dataNodeRestart] where
  listed := List.mem_singleton_self _
  applies := ⟨rfl, nofun⟩
  staged := nofun
  place := by decide +kernel
  ready := ⟨fun _ => by decide +kernel, resolve?_dataNodes hosts, hosted, rfl⟩
  hands := .whole (Or.inl (by decide +kernel))

theorem no_host_twice_dataNodes :
    (Topology.check (dataNodeDocument ["h2", "h3", "h1"])).value =
      some (dataNodes ["h2", "h3", "h1"]) ∧
    (dataNodes ["h2", "h3", "h1"]).KeysApart ∧
    (dataNodes ["h2", "h3", "h1"]).HostsInOrder ∧
    RestartsOnce pairRun (dataNodes ["h2", "h3", "h1"]).site restartDataNode ∧
    restartedHosts ["h2", "h3", "h1"] = [[["h2"]], [["h1"]]] ∧
    ((assignedFor pairRun dataNodeGrouping [workOn (dataNodes ["h2", "h3", "h1"]).site "HDFS"
        ["h2", "h1"] dataNodeRestart] ⟨.restart, none⟩).map
          (PlanGroup.renderedAssignment pairRun (dataNodes ["h2", "h3", "h1"]).site)).Subperm
      ((planGrouping pairRun (dataNodes ["h2", "h3", "h1"]).site restartDataNode
        dataNodeGrouping).stages.flatMap (·.assignments)) := by
  obtain ⟨-, inPlan, exactly, apart⟩ := no_host_twice_iff (dataNodes ["h2", "h3", "h1"])
  have keys : (dataNodes ["h2", "h3", "h1"]).KeysApart := by decide +kernel
  have once : (dataNodes ["h2", "h3", "h1"]).NamedOnce :=
    (apart (by decide) keys).2 (by decide +kernel)
  obtain ⟨ordered, restarts⟩ := exactly.2 once
  have planned := planned_dataNodes ["h2", "h3", "h1"] (by decide +kernel)
  exact ⟨by decide +kernel, keys, ordered, restarts _ _ (by decide), by decide +kernel,
    inPlan _ _ _ _ _ _ _ _ planned _ (by decide +kernel)⟩

/-- A host that a component names twice is given twice by the host table, and restarted twice. -/
theorem host_restarted_twice :
    (Topology.check (dataNodeDocument ["h1", "h2", "h1"])).value =
      some (dataNodes ["h1", "h2", "h1"]) ∧
    (dataNodes ["h1", "h2", "h1"]).run ⟨.upgrade, .rolling, none, "2.3.0.0", none⟩ = .ok pairRun ∧
    ((dataNodes ["h1", "h2", "h1"]).hosts.resolve? "HDFS" "DATANODE").map (·.hosts) =
      some ["h1", "h2", "h1"] ∧
    ¬ (dataNodes ["h1", "h2", "h1"]).HostsInOrder ∧
    restartedHosts ["h1", "h2", "h1"] = [[["h1"]], [["h2"]], [["h1"]]] ∧
    ¬ RestartsOnce pairRun (dataNodes ["h1", "h2", "h1"]).site restartDataNode := by
  refine ⟨by decide +kernel, rfl, by decide +kernel, fun ordered => ?_, by decide +kernel,
    fun once => ?_⟩
  · have inOrder := (ordered _ List.mem_cons_self _ List.mem_cons_self).2 _ (resolve?_dataNodes _)
    exact absurd inOrder.nodup (by decide +kernel)
  · have planned := planned_dataNodes ["h1", "h2", "h1"] (by decide +kernel)
    have nodup := once _ _ _ _ _ _ planned ⟨.restart, none⟩ (by decide +kernel) rfl
    rw [targets_eq planned.staged] at nodup
    exact absurd nodup (by decide +kernel)

end ClusterUpgrade.Plan
