import ClusterUpgrade.Proofs.Plan.Groups
import ClusterUpgrade.Proofs.Plan.Unhealthy

/-!
# Downgrades beside upgrades

A pack may have the same groupings for both directions. `downgrade_mirrors_upgrade` says that two
runs which only differ in the direction then plan and drop the same of them. Each service of a
grouping comes to a block of work and of skips that the direction has no part in (`blocks`). A
rolling downgrade takes the blocks of a grouping in reverse order, and any other downgrade takes
them as the upgrade does.
-/

namespace ClusterUpgrade

/-- A run in a direction. -/
def UpgradeRun.toward (run : UpgradeRun) (d : Direction) : UpgradeRun := { run with direction := d }

namespace Plan

section Blocks

variable (run : UpgradeRun) (site : Site) (pack : Pack)

/-- What the services of a grouping come to, one block for each, in declared order. -/
def blocks (g : Grouping) : List Visit :=
  if Applies run site g then g.services.map (visitService run site pack g) else []

/-- Blocks in the order of a downgrade. -/
def turned {α : Type} (bs : List α) : List α := if run.isRolling then bs.reverse else bs

/-- A grouping is planned as the blocks of its services in an order: its work is what they hand
over, its skips are theirs and then that of the fate that it meets, and its unhealthy hosts are
theirs. -/
structure PlannedAs (g : Grouping) (bs : List Visit) (f : Fate) : Prop where
  meets : Meets run site pack g f
  work : handedWork run site pack g = bs.flatMap (·.work)
  skips : (planGrouping run site pack g).visit.skips = bs.flatMap (·.skips) ++ f.skips g
  unhealthy : (planGrouping run site pack g).visit.unhealthy = bs.flatMap (·.unhealthy)

/-- The fates of a grouping in the two directions: both ways it is planned, or both ways it is
dropped for the same reason, and the blocks of its services are the same. -/
structure Mirrored (g : Grouping) (f : Fate × Fate) : Prop where
  same : f.1.reason? = f.2.reason?
  upgrade : PlannedAs (run.toward .upgrade) site pack g (blocks run site pack g) f.1
  downgrade :
    PlannedAs (run.toward .downgrade) site pack g (turned run (blocks run site pack g)) f.2

end Blocks

variable {run : UpgradeRun} {site : Site} {pack : Pack} {g : Grouping}

/-! ## Blocks in the order of a run -/

/-- The blocks of a grouping in the order in which a run takes them. -/
def orderedBlocks (run : UpgradeRun) (site : Site) (pack : Pack) (g : Grouping) : List Visit :=
  if Applies run site g then (servicesOf run g).map (visitService run site pack g) else []

theorem mem_turned {α : Type} {a : α} {as : List α} : a ∈ turned run as ↔ a ∈ as := by
  unfold turned
  split <;> simp

theorem turned_map {α β : Type} (h : α → β) (as : List α) :
    (turned run as).map h = turned run (as.map h) := by
  unfold turned
  split
  · exact List.map_reverse
  · rfl

theorem servicesOf_upgrade (g : Grouping) : servicesOf (run.toward .upgrade) g = g.services :=
  if_neg (by simp [UpgradeRun.toward, Direction.isDowngrade])

theorem servicesOf_downgrade (g : Grouping) :
    servicesOf (run.toward .downgrade) g = turned run g.services := by
  show (if run.isRolling && true then _ else _) = _
  rw [Bool.and_true]
  rfl

/-- The direction has no part in what a grouping applies to and in what a service comes to. -/
theorem orderedBlocks_toward (d : Direction) : orderedBlocks (run.toward d) site pack g =
    if Applies run site g then
      (servicesOf (run.toward d) g).map (visitService run site pack g)
    else [] := rfl

theorem orderedBlocks_upgrade :
    orderedBlocks (run.toward .upgrade) site pack g = blocks run site pack g := by
  rw [orderedBlocks_toward, servicesOf_upgrade]
  rfl

theorem orderedBlocks_downgrade :
    orderedBlocks (run.toward .downgrade) site pack g = turned run (blocks run site pack g) := by
  rw [orderedBlocks_toward, servicesOf_downgrade, turned_map, blocks]
  split
  · rfl
  · exact (ite_self _).symm

/-! ## A grouping as its blocks -/

/-- The skips of services come before the one of the grouping. -/
theorem skips_planVisited (g : Grouping) : (planVisited run site pack g).visit.skips =
    (visitGrouping run site pack g).skips ++
      groupSkips (planVisited run site pack g).visit.skips := by
  have own : groupSkips (visitGrouping run site pack g).skips = [] := by
    obtain ⟨outcomes, places⟩ := exists_outcomes_walk run site pack g
    rw [visitGrouping_eq, (all_visitPlace places).2]
    exact groupSkips_places _ _
  unfold planVisited
  dsimp only
  split
  · simp only [Visit.skips_append, groupSkips_append, own]
    simp [Visit.say, Visit.skip, Visit.none, groupSkips]
  · rw [own, List.append_nil]

/-- A grouping is planned as its blocks, in the order of the run. -/
theorem exists_plannedAs (run : UpgradeRun) (site : Site) (pack : Pack) (g : Grouping) :
    ∃ f, PlannedAs run site pack g (orderedBlocks run site pack g) f ∧
      (planGrouping run site pack g).group = f.group? := by
  obtain ⟨f, meets, group, skips⟩ := exists_fate run site pack g
  refine ⟨f, ?_, group⟩
  rcases planGrouping_cases run site pack g with ⟨applies, walked⟩ | ⟨out, _, _, -, left⟩
  · have visited : orderedBlocks run site pack g =
        (servicesOf run g).map (visitService run site pack g) := if_pos applies
    refine ⟨meets, ?_, ?_, ?_⟩
    · rw [handedWork_eq applies, visited, List.flatMap_map]
      exact Visit.work_all _ _
    · rw [← skips, walked, visited, List.flatMap_map]
      refine (skips_planVisited g).trans ?_
      exact congrArg (· ++ groupSkips _) (Visit.skips_all _ _)
    · rw [walked, unhealthy_planVisited, ← Visit.unhealthy_all, ← visitGrouping_eq, visited,
        List.flatMap_map]
      exact Visit.unhealthy_all _ _
  · have unvisited : orderedBlocks run site pack g = [] := if_neg out
    refine ⟨meets, ?_, ?_, ?_⟩
    · rw [handedWork, left, unvisited]
      rfl
    · rw [← skips, left, unvisited]
      rfl
    · rw [left, unvisited]
      rfl

/-- Blocks in another order make the same groupings busy. -/
theorem busy_toward_iff : Busy (run.toward .upgrade) site pack g ↔
    Busy (run.toward .downgrade) site pack g := by
  obtain ⟨_, up, -⟩ := exists_plannedAs (run.toward .upgrade) site pack g
  obtain ⟨_, down, -⟩ := exists_plannedAs (run.toward .downgrade) site pack g
  have handed (w : Work) : w ∈ handedWork (run.toward .upgrade) site pack g ↔
      w ∈ handedWork (run.toward .downgrade) site pack g := by
    rw [up.work, down.work, orderedBlocks_upgrade, orderedBlocks_downgrade, List.mem_flatMap,
      List.mem_flatMap]
    simp only [mem_turned]
  unfold Busy
  simp only [handed]
  rfl

/-- The fates that a grouping meets in the two directions have the same reason. -/
theorem Meets.reason_eq {f f' : Fate} (up : Meets (run.toward .upgrade) site pack g f)
    (down : Meets (run.toward .downgrade) site pack g f') : f.reason? = f'.reason? := by
  have outOfScope : f = .outOfScope ↔ f' = .outOfScope := up.outOfScope.trans down.outOfScope.symm
  have conditionNotMet : f = .conditionNotMet ↔ f' = .conditionNotMet :=
    up.conditionNotMet.trans down.conditionNotMet.symm
  have emptyGroup : f = .emptyGroup ↔ f' = .emptyGroup :=
    (up.emptyGroup.trans (and_congr Iff.rfl (not_congr busy_toward_iff))).trans
      down.emptyGroup.symm
  cases f with
  | outOfScope => rw [outOfScope.1 rfl]
  | conditionNotMet => rw [conditionNotMet.1 rfl]
  | emptyGroup => rw [emptyGroup.1 rfl]
  | planned group =>
    cases f' with
    | planned group' => rfl
    | outOfScope => cases outOfScope.2 rfl
    | conditionNotMet => cases conditionNotMet.2 rfl
    | emptyGroup => cases emptyGroup.2 rfl

theorem exists_mirrored (run : UpgradeRun) (site : Site) (pack : Pack) (g : Grouping) :
    ∃ f : Fate × Fate, Mirrored run site pack g f ∧
      (planGrouping (run.toward .upgrade) site pack g).group = f.1.group? ∧
      (planGrouping (run.toward .downgrade) site pack g).group = f.2.group? := by
  obtain ⟨f, up, group⟩ := exists_plannedAs (run.toward .upgrade) site pack g
  obtain ⟨f', down, group'⟩ := exists_plannedAs (run.toward .downgrade) site pack g
  rw [orderedBlocks_upgrade] at up
  rw [orderedBlocks_downgrade] at down
  exact ⟨(f, f'), ⟨up.meets.reason_eq down.meets, up, down⟩, group, group'⟩

/-! ## Whole plans -/

theorem groupings_of_shared (shared : pack.downgrade = none) (d : Direction) :
    pack.groupings d = pack.upgrade := by
  cases d with
  | upgrade => rfl
  | downgrade => simp [Pack.groupings, shared]

theorem groups_toward (shared : pack.downgrade = none) (d : Direction) :
    (Plan.of (run.toward d) site pack).groups =
      pack.upgrade.filterMap fun g => (planGrouping (run.toward d) site pack g).group := by
  change (planGroupings (run.toward d) site pack).filterMap (·.group) = _
  rw [planGroupings, List.filterMap_map]
  exact congrArg _ (groupings_of_shared shared d)

theorem skips_toward (shared : pack.downgrade = none) (d : Direction) :
    (Plan.of (run.toward d) site pack).findings.skips =
      pack.upgrade.flatMap fun g => (planGrouping (run.toward d) site pack g).visit.skips := by
  change (Visit.all (·.visit) (planGroupings (run.toward d) site pack)).skips = _
  rw [Visit.skips_all, planGroupings, List.flatMap_map]
  exact congrArg _ (groupings_of_shared shared d)

/-- **A downgrade mirrors the upgrade.** Two runs that only differ in the direction plan and drop
the same groupings of a pack without groupings of its own for downgrades. The blocks of a grouping
are the same for both; a rolling downgrade takes them in reverse order, and any other one has just
the work and the skips of the upgrade. The same hosts are unhealthy. -/
theorem downgrade_mirrors_upgrade (run : UpgradeRun) (site : Site) (pack : Pack)
    (shared : pack.downgrade = none) :
    (∃ fates : List (Fate × Fate), List.Forall₂ (Mirrored run site pack) pack.upgrade fates ∧
      (Plan.of (run.toward .upgrade) site pack).groups = fates.filterMap (·.1.group?) ∧
      (Plan.of (run.toward .downgrade) site pack).groups = fates.filterMap (·.2.group?)) ∧
    (∀ d, (Plan.of (run.toward d) site pack).findings.skips =
      pack.upgrade.flatMap fun g => (planGrouping (run.toward d) site pack g).visit.skips) ∧
    (run.isRolling = false →
      (∀ g, handedWork (run.toward .downgrade) site pack g =
        handedWork (run.toward .upgrade) site pack g) ∧
      (Plan.of (run.toward .downgrade) site pack).findings.skips =
        (Plan.of (run.toward .upgrade) site pack).findings.skips) ∧
    ∀ host, host ∈ (Plan.of (run.toward .downgrade) site pack).findings.unhealthyHosts ↔
      host ∈ (Plan.of (run.toward .upgrade) site pack).findings.unhealthyHosts := by
  choose fates mirrored up down using exists_mirrored run site pack
  refine ⟨⟨pack.upgrade.map fates, ?_, ?_, ?_⟩, skips_toward shared, fun still => ⟨?_, ?_⟩, ?_⟩
  · rw [List.forall₂_map_right_iff, List.forall₂_same]
    exact fun g _ => mirrored g
  · rw [groups_toward shared, List.filterMap_map]
    exact List.filterMap_congr fun g _ => up g
  · rw [groups_toward shared, List.filterMap_map]
    exact List.filterMap_congr fun g _ => down g
  · intro g
    rw [(mirrored g).upgrade.work, (mirrored g).downgrade.work, turned, if_neg (by simp [still])]
  · rw [skips_toward shared, skips_toward shared]
    refine List.flatMap_congr fun g _ => ?_
    rw [(mirrored g).upgrade.skips, (mirrored g).downgrade.skips, turned, if_neg (by simp [still]),
      Fate.skips, Fate.skips, (mirrored g).same]
  · intro host
    rw [mem_unhealthyHosts, mem_unhealthyHosts]
    show (∃ g ∈ pack.groupings .downgrade, _) ↔ (∃ g ∈ pack.groupings .upgrade, _)
    simp only [groupings_of_shared shared, (mirrored _).upgrade.unhealthy,
      (mirrored _).downgrade.unhealthy, List.mem_flatMap, mem_turned]

/-- The masters of two services. -/
def masters : Grouping where
  name := "MASTERS"
  title := "Masters"
  scope := .any
  condition := none
  skippable := false
  allowRetry := true
  supportsAutoSkip := true
  performServiceCheck := false
  services := [⟨"ZOOKEEPER", ["ZOOKEEPER_SERVER"]⟩, ⟨"HDFS", ["NAMENODE"]⟩]
  kind := .function .restart

/-- A rolling run of two services. -/
def mastersRun : UpgradeRun :=
  .ofServices .upgrade .rolling .complete ⟨"2.3.0.0", ⟨"HDP", "2.3"⟩⟩ .empty .empty
    ["ZOOKEEPER", "HDFS"]

/-- A pack that restarts the masters of two services. -/
def restartMasters : Pack :=
  { restartNameNode with
    upgrade := [masters]
    processing := .ofList [
      ("ZOOKEEPER", .ofList [("ZOOKEEPER_SERVER", ⟨"ZOOKEEPER_SERVER", [⟨.restart, none⟩]⟩)]),
      ("HDFS", .ofList [("NAMENODE", ⟨"NAMENODE", [⟨.restart, none⟩]⟩)])] }

/-- Two services that run on two hosts. -/
def mastersPair : Topology :=
  { nameNodePair [] with
    services := ⟨"ZOOKEEPER", none, false, none,
      [⟨"ZOOKEEPER_SERVER", none, true, ⟨["h1", "h2"], none, none, []⟩⟩]⟩ ::
        (nameNodePair []).services }

/-- A downgrade restarts the masters of the last service first, and each NameNode in the order of
the upgrade. -/
theorem downgrade_mirrors_upgrade_masters :
    restartMasters.downgrade = none ∧
    (∃ fates : List (Fate × Fate),
      List.Forall₂ (Mirrored mastersRun mastersPair.site restartMasters) [masters] fates) ∧
    (handedWork (mastersRun.toward .upgrade) mastersPair.site restartMasters masters).map
      (fun w => (w.component, w.hosts)) =
        [("ZOOKEEPER_SERVER", ["h1", "h2"]), ("NAMENODE", ["h2", "h1"])] ∧
    (handedWork (mastersRun.toward .downgrade) mastersPair.site restartMasters masters).map
      (fun w => (w.component, w.hosts)) =
        [("NAMENODE", ["h2", "h1"]), ("ZOOKEEPER_SERVER", ["h1", "h2"])] := by
  obtain ⟨⟨fates, mirrored, -⟩, -⟩ :=
    downgrade_mirrors_upgrade mastersRun mastersPair.site restartMasters rfl
  exact ⟨rfl, ⟨fates, mirrored⟩, by decide +kernel, by decide +kernel⟩

end Plan

end ClusterUpgrade
