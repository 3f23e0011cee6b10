import ClusterUpgrade.Proofs.Plan.Targets

/-!
# Unhealthy hosts of a plan

Planning lists the unhealthy hosts of the components that it finds on its walk, each host once. A
component without a single healthy host is skipped before its hosts are listed
(`mem_unhealthyHosts_iff`), so the list is complete exactly when each of its hosts turns up with
some other component (`lists_unhealthy_hosts_iff`).
-/

namespace ClusterUpgrade.Plan

section Unhealthy

variable (run : UpgradeRun) (site : Site) (pack : Pack)

/-- A component that a plan asks the resolver for: it stands in a service that is entered and, in a
rolling run, the pack has tasks for it. -/
def Asked (service component : String) : Prop :=
  (run.isRolling → pack.processing.finds service component) ∧
    ∃ g ∈ pack.groupings run.direction, Applies run site g ∧
      .component service component ∈ walk run pack g

/-- A host that the resolver reports unhealthy for a component that a plan asks for. -/
structure Reported (service component : String) (hosts : HostGroup) (host : String) : Prop where
  asked : Asked run site pack service component
  resolved : site.hosts.resolve? service component = some hosts
  unhealthy : host ∈ hosts.unhealthy

/-- A plan lists just the unhealthy hosts that are reported to it. -/
def ListsUnhealthy : Prop :=
  ∀ host, host ∈ (Plan.of run site pack).findings.unhealthyHosts ↔
    ∃ service component hosts, Reported run site pack service component hosts host

end Unhealthy

variable {run : UpgradeRun} {site : Site} {pack : Pack} {g : Grouping} {s c host : String}
  {hosts : HostGroup}

/-! ## The hosts of a visit -/

theorem unhealthy_visitPlanned (group : String) (clientOnly : Bool) (p : Processing) :
    (visitPlanned run site group s c hosts clientOnly p).unhealthy = [] := by
  unfold visitPlanned
  rw [Visit.unhealthy_append, visitTitles_finds.2.2]
  split
  · split <;> rfl
  · rfl

/-- A component with hosts to work on is visited for its unhealthy hosts as well, whatever comes of
it. -/
theorem unhealthy_visitHosted (clientOnly : Bool) :
    (visitHosted run site pack g s c hosts clientOnly).unhealthy = hosts.unhealthy := by
  unfold visitHosted
  rw [Visit.unhealthy_append]
  split
  · exact List.append_nil _
  · rw [unhealthy_visitPlanned]
    exact List.append_nil _

/-- A place finds the unhealthy hosts of its component, if that has tasks and a healthy host. -/
theorem mem_unhealthy_visitPlace :
    host ∈ (visitPlace run site pack g (.component s c)).unhealthy ↔
      (run.isRolling → pack.processing.finds s c) ∧
        ∃ hosts, site.hosts.resolve? s c = some hosts ∧ hosts.hosts ≠ [] ∧
          host ∈ hosts.unhealthy := by
  by_cases listed : run.isRolling = true → pack.processing.finds s c = true
  · rw [visitPlace_of_listed listed]
    cases resolved : site.hosts.resolve? s c with
    | none => simp [Visit.skip, Visit.none]
    | some hosts =>
      by_cases hosted : hosts.hosts = []
      · simp [hosted, Visit.skip, Visit.none]
      · simpa [hosted, unhealthy_visitHosted] using fun _ => listed
  · obtain ⟨rolling, unlisted⟩ := Classical.not_imp.1 listed
    have missing : pack.processing.finds s c = false := by simpa using unlisted
    simp [visitPlace, visitComponent, rolling, missing, Visit.skip, Visit.none]

theorem unhealthy_planVisited : (planVisited run site pack g).visit.unhealthy =
    (walk run pack g).flatMap fun place => (visitPlace run site pack g place).unhealthy := by
  simp only [planVisited, visitGrouping_eq]
  split
  · rw [Visit.unhealthy_append, Visit.unhealthy_append, Visit.unhealthy_all]
    exact (List.append_nil _).trans (List.append_nil _)
  · exact Visit.unhealthy_all _ _

/-- A grouping is visited for unhealthy hosts if it applies to the run. -/
theorem unhealthy_planGrouping (g : Grouping) : (planGrouping run site pack g).visit.unhealthy =
    if Applies run site g then
      (walk run pack g).flatMap fun place => (visitPlace run site pack g place).unhealthy
    else [] := by
  rcases planGrouping_cases run site pack g with ⟨applies, walked⟩ | ⟨out, _, _, -, left⟩
  · rw [if_pos applies, walked, unhealthy_planVisited]
  · rw [if_neg out, left]
    rfl

/-! ## The hosts of a plan -/

theorem mem_unhealthyHosts : host ∈ (Plan.of run site pack).findings.unhealthyHosts ↔
    ∃ g ∈ pack.groupings run.direction, host ∈ (planGrouping run site pack g).visit.unhealthy := by
  change host ∈ distinct (Visit.all (·.visit) (planGroupings run site pack)).unhealthy ↔ _
  rw [mem_distinct, Visit.unhealthy_all, planGroupings, List.flatMap_map, List.mem_flatMap]

/-- An unhealthy host is listed with a component that has a healthy one, and only with such a
component. -/
theorem mem_unhealthyHosts_iff : host ∈ (Plan.of run site pack).findings.unhealthyHosts ↔
    ∃ service component hosts, Reported run site pack service component hosts host ∧
      hosts.hosts ≠ [] := by
  rw [mem_unhealthyHosts]
  constructor
  · rintro ⟨g, listed, found⟩
    rw [unhealthy_planGrouping] at found
    split_ifs at found with applies
    · obtain ⟨place, mem, found⟩ := List.mem_flatMap.1 found
      cases place with
      | service s => cases found
      | component s c =>
        obtain ⟨tasks, hosts, resolved, hosted, unhealthy⟩ := mem_unhealthy_visitPlace.1 found
        exact ⟨s, c, hosts, ⟨⟨tasks, g, listed, applies, mem⟩, resolved, unhealthy⟩, hosted⟩
    · cases found
  · rintro ⟨s, c, hosts, ⟨⟨tasks, g, listed, applies, mem⟩, resolved, unhealthy⟩, hosted⟩
    refine ⟨g, listed, ?_⟩
    rw [unhealthy_planGrouping, if_pos applies]
    exact List.mem_flatMap.2 ⟨_, mem,
      mem_unhealthy_visitPlace.2 ⟨tasks, hosts, resolved, hosted, unhealthy⟩⟩

/-- **Unhealthy hosts of a plan.** They are listed once each, and just those that the resolver
reports for a component with a healthy host. These are all that it reports exactly when every host
of a component without a healthy one is reported for another component, too. -/
theorem lists_unhealthy_hosts_iff (run : UpgradeRun) (site : Site) (pack : Pack) :
    (Plan.of run site pack).findings.unhealthyHosts.Nodup ∧
    (∀ host, host ∈ (Plan.of run site pack).findings.unhealthyHosts ↔
      ∃ service component hosts, Reported run site pack service component hosts host ∧
        hosts.hosts ≠ []) ∧
    (ListsUnhealthy run site pack ↔ ∀ service component hosts host,
      Reported run site pack service component hosts host → hosts.hosts = [] →
        ∃ service' component' hosts', Reported run site pack service' component' hosts' host ∧
          hosts'.hosts ≠ []) := by
  refine ⟨nodup_distinct _, fun _ => mem_unhealthyHosts_iff, ?_⟩
  constructor
  · intro lists s c hosts host reported _
    exact mem_unhealthyHosts_iff.1 ((lists host).2 ⟨s, c, hosts, reported⟩)
  · intro elsewhere host
    rw [mem_unhealthyHosts_iff]
    constructor
    · rintro ⟨s, c, hosts, reported, -⟩
      exact ⟨s, c, hosts, reported⟩
    · rintro ⟨s, c, hosts, reported⟩
      by_cases unhosted : hosts.hosts = []
      · exact elsewhere s c hosts host reported unhosted
      · exact ⟨s, c, hosts, reported, unhosted⟩

/-- With one healthy instance left, the unhealthy one is listed. -/
theorem lists_unhealthy_active :
    ListsUnhealthy pairRun (nameNodePair ["h1"]).site restartNameNode ∧
    (Plan.of pairRun (nameNodePair ["h1"]).site restartNameNode).findings.unhealthyHosts =
      ["h1"] := by
  refine ⟨(lists_unhealthy_hosts_iff _ _ _).2.2.2 ?_, by decide +kernel⟩
  rintro s c hosts host ⟨⟨-, g, listed, -, mem⟩, resolved, -⟩ unhosted
  obtain rfl := List.mem_singleton.1 listed
  obtain ⟨rfl, rfl⟩ := Place.component.inj (List.mem_singleton.1 mem)
  obtain rfl := Option.some.inj resolved
  cases unhosted

/-- With both instances unhealthy, neither is listed. -/
theorem lists_no_unhealthy_pair :
    (nameNodePair ["h1", "h2"]).run ⟨.upgrade, .rolling, none, "2.3.0.0", none⟩ = .ok pairRun ∧
    ((nameNodePair ["h1", "h2"]).hosts.resolve? "HDFS" "NAMENODE").map (·.unhealthy) =
      some ["h1", "h2"] ∧
    (Plan.of pairRun (nameNodePair ["h1", "h2"]).site restartNameNode).findings.unhealthyHosts =
      [] ∧
    ¬ ListsUnhealthy pairRun (nameNodePair ["h1", "h2"]).site restartNameNode := by
  refine ⟨run_nameNodePair _, by decide +kernel, by decide +kernel, fun lists => ?_⟩
  refine absurd ((lists "h1").2 ⟨"HDFS", "NAMENODE", _, ⟨?_, _, List.mem_singleton_self _, ?_, ?_⟩,
    rfl, ?_⟩) ?_
  all_goals decide +kernel

end ClusterUpgrade.Plan
