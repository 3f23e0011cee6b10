import ClusterUpgrade.Proofs.Plan.Groups
import ClusterUpgrade.Proofs.Plan.Mirror
import Mathlib.Data.List.Induction

/-!
# Service checks

1. Work is gone through entry by entry: an entry without hosts, or of a service that is checked
   already, adds nothing (`checks_append_of_skipped`), and any other adds its check at the end
   (`checks_append_of_first`). `ChecksOf` is kept by both steps, so there is one check for each
   service that is touched, in the order of the first entries with a host (`exists_checksOf`,
   `ChecksOf.once`).
2. Checks follow the other stages of a group. `ChecksWhen` says which groupings of a run make them,
   and `service_checks_last` that the groupings of a plan go by it.
-/

namespace ClusterUpgrade

namespace Stage

/-! ## Entries -/

/-- Some work has a host for a service. -/
def Touches (works : List Work) (service : String) : Prop :=
  ∃ w ∈ works, w.hosts ≠ [] ∧ w.service = service

/-- An entry is the first of its service that has a host. -/
structure FirstAt (works : List Work) (i : Nat) (w : Work) : Prop where
  found : works[i]? = some w
  hosted : w.hosts ≠ []
  first : ∀ j < i, ∀ v, works[j]? = some v → v.hosts ≠ [] → v.service ≠ w.service

/-- A stage is the check of an entry: its only assignment has the service, the component and the
parameters of the entry, and the first of its hosts. -/
structure IsCheckOf (w : Work) (s : Stage) : Prop where
  kind_eq : s.kind = .serviceCheck
  text_eq : s.text = some ("Service Check " ++ w.service)
  assigned : ∃ host, w.hosts.head? = some host ∧ s.assignments =
    [{ service := w.service, component := w.component, hosts := [host], tasks := [checkTask]
       params := w.params }]

/-- Stages are the checks of entries: of all that come first for their service, in their order. -/
structure ChecksOf (works : List Work) (entries : List Nat) (stages : List Stage) : Prop where
  each : List.Forall₂ (fun i s => ∃ w, works[i]? = some w ∧ IsCheckOf w s) entries stages
  mem_iff : ∀ i, i ∈ entries ↔ ∃ w, FirstAt works i w
  ordered : entries.Pairwise (· < ·)

variable {works : List Work} {w v : Work} {i j : Nat} {entries : List Nat} {stages : List Stage}

theorem isCheckOf_ofCheck (hosted : w.hosts ≠ []) : IsCheckOf w (ofCheck w) where
  kind_eq := rfl
  text_eq := rfl
  assigned := by
    obtain ⟨host, others, hosts⟩ := List.exists_cons_of_ne_nil hosted
    refine ⟨host, by rw [hosts]; rfl, ?_⟩
    rw [ofCheck, Work.assign, hosts]
    rfl

theorem FirstAt.lt_length (h : FirstAt works i w) : i < works.length :=
  (List.getElem?_eq_some_iff.1 h.found).1

theorem getElem?_append_of_some {more : List Work} (found : works[i]? = some w) :
    (works ++ more)[i]? = some w := by
  rw [List.getElem?_append_left (List.getElem?_eq_some_iff.1 found).1, found]

theorem FirstAt.unique (h : FirstAt works i w) (h' : FirstAt works j v)
    (same : w.service = v.service) : i = j := by
  rcases Nat.lt_trichotomy i j with before | rfl | after
  · exact absurd same (h'.first i before w h.found h.hosted)
  · rfl
  · exact absurd same.symm (h.first j after v h'.found h'.hosted)

/-- What comes later does not matter for who is first. -/
theorem firstAt_append_iff : FirstAt (works ++ [v]) i w ↔ FirstAt works i w ∨
    i = works.length ∧ w = v ∧ v.hosts ≠ [] ∧ ¬ Touches works v.service := by
  constructor
  · rintro ⟨found, hosted, first⟩
    rcases Nat.lt_or_ge i works.length with before | after
    · rw [List.getElem?_append_left before] at found
      refine .inl ⟨found, hosted, fun j hj x hx => first j hj x ?_⟩
      rw [List.getElem?_append_left (Nat.lt_trans hj before), hx]
    · obtain rfl : i = works.length := by
        have := (List.getElem?_eq_some_iff.1 found).1
        simp only [List.length_append, List.length_singleton] at this
        omega
      rw [List.getElem?_concat_length, Option.some.injEq] at found
      subst found
      refine .inr ⟨rfl, rfl, hosted, ?_⟩
      rintro ⟨x, mem, hosted', same⟩
      obtain ⟨j, hj, hx⟩ := List.getElem_of_mem mem
      refine first j hj x ?_ hosted' same
      rw [List.getElem?_append_left hj, List.getElem?_eq_getElem hj, hx]
  · rintro (h | ⟨rfl, rfl, hosted, untouched⟩)
    · refine ⟨getElem?_append_of_some h.found, h.hosted, fun j hj x hx => h.first j hj x ?_⟩
      rwa [List.getElem?_append_left (Nat.lt_trans hj h.lt_length)] at hx
    · refine ⟨List.getElem?_concat_length, hosted, fun j hj x hx hosted' same => ?_⟩
      rw [List.getElem?_append_left hj] at hx
      exact untouched ⟨x, List.mem_of_getElem? hx, hosted', same⟩

/-- Every service that is touched has a first entry with a host. -/
theorem exists_firstAt {service : String} (touched : Touches works service) :
    ∃ i w, FirstAt works i w ∧ w.service = service := by
  induction works using List.reverseRecOn with
  | nil =>
    obtain ⟨w, mem, -⟩ := touched
    cases mem
  | append_singleton works v ih =>
    by_cases before : Touches works service
    · obtain ⟨i, w, first, named⟩ := ih before
      exact ⟨i, w, firstAt_append_iff.2 (.inl first), named⟩
    · obtain ⟨w, mem, hosted, named⟩ := touched
      rcases List.mem_append.1 mem with earlier | last
      · exact absurd ⟨w, earlier, hosted, named⟩ before
      · obtain rfl := List.mem_singleton.1 last
        exact ⟨_, w, firstAt_append_iff.2 (.inr ⟨rfl, rfl, hosted, named ▸ before⟩), named⟩

/-! ## One entry after the other -/

/-- The entries with hosts. -/
def withHosts (works : List Work) : List Work := works.filter fun w => !w.hosts.isEmpty

theorem firstOfServices_eq (works : List Work) : firstOfServices works =
    (distinct ((withHosts works).map (·.service))).filterMap fun s =>
      (withHosts works).find? (·.service = s) := rfl

theorem withHosts_append_of_hostless (hostless : v.hosts = []) :
    withHosts (works ++ [v]) = withHosts works := by
  simp [withHosts, List.filter_append, hostless]

theorem withHosts_append_of_hosted (has_host : v.hosts ≠ []) :
    withHosts (works ++ [v]) = withHosts works ++ [v] := by
  simp [withHosts, List.filter_append, has_host]

theorem mem_services_iff {service : String} :
    service ∈ (withHosts works).map (·.service) ↔ Touches works service := by
  simp [withHosts, Touches, and_assoc]

theorem exists_find?_withHosts {service : String} (touched : Touches works service) :
    ∃ w, (withHosts works).find? (·.service = service) = some w := by
  obtain ⟨w, mem, named⟩ := List.mem_map.1 (mem_services_iff.2 touched)
  rw [← Option.isSome_iff_exists, List.find?_isSome]
  exact ⟨w, mem, decide_eq_true named⟩

/-- The first entries of the services so far stay the same. -/
theorem firstOfServices_eq_append (works more : List Work) : firstOfServices works =
    (distinct ((withHosts works).map (·.service))).filterMap fun s =>
      (withHosts works ++ more).find? (·.service = s) := by
  rw [firstOfServices_eq]
  refine List.filterMap_congr fun service mem => ?_
  obtain ⟨w, hw⟩ := exists_find?_withHosts (mem_services_iff.1 (mem_distinct.1 mem))
  rw [List.find?_append, hw, Option.some_or]

theorem checks_append_of_skipped (skipped : v.hosts = [] ∨ Touches works v.service) :
    checks (works ++ [v]) = checks works := by
  rw [checks, checks, firstOfServices_eq]
  by_cases hostless : v.hosts = []
  · rw [withHosts_append_of_hostless hostless, ← firstOfServices_eq]
  · have known : v.service ∈ distinct ((withHosts works).map (·.service)) :=
      mem_distinct.2 (mem_services_iff.2 (skipped.resolve_left hostless))
    rw [withHosts_append_of_hosted hostless, List.map_append, List.map_singleton,
      distinct_append_singleton, addDistinct, if_pos known, ← firstOfServices_eq_append]

theorem checks_append_of_first (has_host : v.hosts ≠ [])
    (untouched : ¬ Touches works v.service) :
    checks (works ++ [v]) = checks works ++ [ofCheck v] := by
  have fresh : v.service ∉ (withHosts works).map (·.service) := mt mem_services_iff.1 untouched
  have new : (withHosts works ++ [v]).find? (·.service = v.service) = some v := by
    rw [List.find?_append, List.find?_eq_none.2, Option.none_or]
    · simp
    · intro w mem named
      exact fresh (List.mem_map.2 ⟨w, mem, of_decide_eq_true named⟩)
  rw [checks, checks, firstOfServices_eq, withHosts_append_of_hosted has_host, List.map_append,
    List.map_singleton, distinct_append_singleton, addDistinct, if_neg (mt mem_distinct.1 fresh),
    List.filterMap_append, ← firstOfServices_eq_append, List.map_append,
    List.filterMap_cons_some (f := fun s => (withHosts works ++ [v]).find? (·.service = s)) new]
  rfl

/-! ## All entries -/

theorem checksOf_nil : ChecksOf [] [] [] where
  each := .nil
  mem_iff := fun _ => iff_of_false List.not_mem_nil fun ⟨_, first⟩ => nomatch first.found
  ordered := .nil

theorem ChecksOf.skip (h : ChecksOf works entries stages)
    (skipped : v.hosts = [] ∨ Touches works v.service) :
    ChecksOf (works ++ [v]) entries stages where
  each := h.each.imp fun _ _ ⟨w, found, check⟩ => ⟨w, getElem?_append_of_some found, check⟩
  mem_iff := by
    intro i
    rw [h.mem_iff]
    refine exists_congr fun w => ?_
    rw [firstAt_append_iff, iff_self_or]
    rintro ⟨-, -, has_host, untouched⟩
    exact (skipped.elim has_host untouched).elim
  ordered := h.ordered

theorem ChecksOf.add (h : ChecksOf works entries stages) (has_host : v.hosts ≠ [])
    (untouched : ¬ Touches works v.service) :
    ChecksOf (works ++ [v]) (entries ++ [works.length]) (stages ++ [ofCheck v]) where
  each := by
    refine List.rel_append (h.each.imp ?_) (.cons ⟨v, ?_, isCheckOf_ofCheck has_host⟩ .nil)
    · rintro i s ⟨w, found, check⟩
      exact ⟨w, getElem?_append_of_some found, check⟩
    · exact List.getElem?_concat_length
  mem_iff := by
    intro i
    rw [List.mem_append, List.mem_singleton, h.mem_iff]
    simp only [firstAt_append_iff, exists_or]
    refine or_congr_right ⟨fun last => ⟨v, last, rfl, has_host, untouched⟩, ?_⟩
    rintro ⟨w, last, -⟩
    exact last
  ordered := by
    refine List.pairwise_append.2 ⟨h.ordered, List.pairwise_singleton _ _, fun i mem j last => ?_⟩
    obtain rfl := List.mem_singleton.1 last
    obtain ⟨w, first⟩ := (h.mem_iff i).1 mem
    exact first.lt_length

/-- The checks of some work are those of its entries that come first for their service. -/
theorem exists_checksOf (works : List Work) : ∃ entries, ChecksOf works entries (checks works) := by
  induction works using List.reverseRecOn with
  | nil => exact ⟨[], checksOf_nil⟩
  | append_singleton works v ih =>
    obtain ⟨entries, checked⟩ := ih
    by_cases skipped : v.hosts = [] ∨ Touches works v.service
    · rw [checks_append_of_skipped skipped]
      exact ⟨entries, checked.skip skipped⟩
    · obtain ⟨has_host, untouched⟩ := not_or.1 skipped
      rw [checks_append_of_first has_host untouched]
      exact ⟨_, checked.add has_host untouched⟩

/-- Each service that is touched is checked once. -/
theorem ChecksOf.once (h : ChecksOf works entries stages) {service : String}
    (touched : Touches works service) :
    ∃! i, i ∈ entries ∧ ∃ w, works[i]? = some w ∧ w.service = service := by
  obtain ⟨i, w, first, named⟩ := exists_firstAt touched
  refine ⟨i, ⟨(h.mem_iff i).2 ⟨w, first⟩, w, first.found, named⟩, ?_⟩
  rintro j ⟨mem, v, found, named'⟩
  obtain ⟨v', first'⟩ := (h.mem_iff j).1 mem
  obtain rfl := Option.some.inj (found.symm.trans first'.found)
  exact first'.unique first (named'.trans named.symm)

end Stage

namespace Plan

open Stage

variable {run : UpgradeRun} {site : Site} {pack : Pack} {g : Grouping}

/-! ## Checks of a plan -/

/-- Which groupings of a run make checks: service check groups always do. Of the others none does in
a non-rolling run, and in any other run those do that ask for it. -/
structure ChecksWhen (run : UpgradeRun) (g : Grouping) (makes : Bool) : Prop where
  serviceCheck : g.kind = .serviceCheck → makes = true
  nonRolling : g.kind ≠ .serviceCheck → run.orchestration = .nonRolling → makes = false
  asked : g.kind ≠ .serviceCheck → run.orchestration ≠ .nonRolling → makes = g.performServiceCheck

theorem makesChecks_of_ne {kind : GroupingKind} {asked : Bool} (other : kind ≠ .serviceCheck) :
    makesChecks kind asked = asked := by
  cases kind with
  | standard => rfl
  | function f => rfl
  | serviceCheck => exact absurd rfl other

theorem checksWhen_makesChecks (run : UpgradeRun) (g : Grouping) :
    ChecksWhen run g (makesChecks g.kind (PlanGroup.checksServices run g)) where
  serviceCheck := fun kind => by rw [kind]; rfl
  nonRolling := fun other still => by
    rw [makesChecks_of_ne other, PlanGroup.checksServices, if_pos ⟨still, other⟩]
  asked := fun other moving => by
    rw [makesChecks_of_ne other, PlanGroup.checksServices, if_neg fun both => moving both.1]

theorem stages_eq_built (applies : Applies run site g) :
    (planGrouping run site pack g).stages =
      (built g.kind run.orchestration (makesChecks g.kind (PlanGroup.checksServices run g))
        (handedWork run site pack g)).map (PlanGroup.renderedStage run site) := by
  obtain ⟨outcomes, places, stages⟩ := stages_planGrouping pack applies
  rw [stages, handedWork_eq_flatMap applies places]
  rfl

/-- **Service checks come last.** What a group adds to its other stages is nothing, unless it makes
checks; then it is one check for each service that has an entry with a host, in the order of the
first such entries, and with the component, the parameters and the first host of that entry. A
grouping of a plan makes checks when its kind, the orchestration of the run and its own flag say
so. -/
theorem service_checks_last (run : UpgradeRun) (site : Site) (pack : Pack) :
    (∀ works : List Work, ∃ entries stages, ChecksOf works entries stages ∧
      (∀ service, Touches works service →
        ∃! i, i ∈ entries ∧ ∃ w, works[i]? = some w ∧ w.service = service) ∧
      ∀ kind orchestration makes, built kind orchestration makes works =
        ownStages kind orchestration works ++ if makes then stages else []) ∧
    (∀ g, Applies run site g → ∃ makes, ChecksWhen run g makes ∧
      (planGrouping run site pack g).stages =
        (built g.kind run.orchestration makes (handedWork run site pack g)).map
          (PlanGroup.renderedStage run site)) ∧
    ∀ group ∈ (Plan.of run site pack).groups, ∃ g ∈ pack.groupings run.direction,
      Applies run site g ∧ group.stages = (planGrouping run site pack g).stages := by
  refine ⟨fun works => ?_, fun g applies => ?_, fun group mem => ?_⟩
  · obtain ⟨entries, checked⟩ := exists_checksOf works
    exact ⟨entries, checks works, checked, fun _ => checked.once, fun _ _ _ => rfl⟩
  · exact ⟨_, checksWhen_makesChecks run g, stages_eq_built applies⟩
  · obtain ⟨g, listed, planned⟩ := mem_groups_iff.1 mem
    exact ⟨g, listed, (applies_of_group planned).1, GroupPlan.stages_eq planned⟩

/-- A non-rolling run of two services. -/
def stillRun : UpgradeRun := { mastersRun with orchestration := .nonRolling }

/-- Masters that ask for their checks. -/
def checkedMasters : Grouping := { masters with performServiceCheck := true }

/-- The check of the masters. -/
def mastersCheck : Grouping := { masters with kind := .serviceCheck }

/-- A pack that restarts the masters and then checks them. -/
def restartThenCheck : Pack :=
  { restartMasters with orchestration := .nonRolling, upgrade := [checkedMasters, mastersCheck] }

/-- A non-rolling run leaves the checks to the group that is for them, and the check of HDFS goes to
the first of the two entries for its NameNodes. -/
theorem service_checks_last_masters :
    Applies stillRun mastersPair.site checkedMasters ∧
    Applies stillRun mastersPair.site mastersCheck ∧
    (planGrouping stillRun mastersPair.site restartThenCheck checkedMasters).stages =
      (built (.function .restart) .nonRolling false
        (handedWork stillRun mastersPair.site restartThenCheck checkedMasters)).map
          (PlanGroup.renderedStage stillRun mastersPair.site) ∧
    (planGrouping stillRun mastersPair.site restartThenCheck mastersCheck).stages =
      (built .serviceCheck .nonRolling true
        (handedWork stillRun mastersPair.site restartThenCheck mastersCheck)).map
          (PlanGroup.renderedStage stillRun mastersPair.site) ∧
    ((Plan.of stillRun mastersPair.site restartThenCheck).groups.map fun group =>
      group.stages.map fun s => (s.text, s.assignments.map fun a => (a.component, a.hosts))) =
      [[(some "Restarting ZOOKEEPER_SERVER, NAMENODE",
          [("ZOOKEEPER_SERVER", ["h1", "h2"]), ("NAMENODE", ["h1"]), ("NAMENODE", ["h2"])])],
        [(some "Service Check ZOOKEEPER", [("ZOOKEEPER_SERVER", ["h1"])]),
          (some "Service Check HDFS", [("NAMENODE", ["h1"])])]] := by
  have asking : Applies stillRun mastersPair.site checkedMasters := ⟨rfl, nofun⟩
  have checking : Applies stillRun mastersPair.site mastersCheck := ⟨rfl, nofun⟩
  obtain ⟨-, stages, -⟩ := service_checks_last stillRun mastersPair.site restartThenCheck
  obtain ⟨makes, whenAsked, restarts⟩ := stages checkedMasters asking
  obtain ⟨makes', whenChecked, checked⟩ := stages mastersCheck checking
  obtain rfl := whenAsked.nonRolling nofun rfl
  obtain rfl := whenChecked.serviceCheck rfl
  exact ⟨asking, checking, restarts, checked, by decide +kernel⟩

end Plan

end ClusterUpgrade
