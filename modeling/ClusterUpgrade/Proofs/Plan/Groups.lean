import ClusterUpgrade.Proofs.Plan.Walk
import ClusterUpgrade.Proofs.Stage

/-!
# The groups of a plan

A grouping of a pack meets one of four fates: it is out of scope, its condition is not met, nothing
is made of its work, or it has a group in the plan. `Meets` says when which of them comes about and
what a group has of its grouping, and `groups_of_pack` that a plan has the groups and the skips of
the fates of its groupings, in the order of the pack, and no others; there is a plan unless planning
breaks off at a grouping.
-/

namespace ClusterUpgrade.Plan

open Stage

/-! ## Fates -/

/-- What becomes of a grouping. -/
inductive Fate where
  | outOfScope
  | conditionNotMet
  | emptyGroup
  | planned (group : PlanGroup)

namespace Fate

/-- The group of a grouping that is planned. -/
def group? : Fate → Option PlanGroup
  | planned group => some group
  | _ => none

/-- Why a grouping has no group. -/
def reason? : Fate → Option SkipReason
  | outOfScope => some .outOfScope
  | conditionNotMet => some .conditionNotMet
  | emptyGroup => some .emptyGroup
  | planned _ => none

/-- The skip of a grouping that has no group. -/
def skips (g : Grouping) (f : Fate) : List Skip :=
  f.reason?.toList.map fun reason => ⟨reason, g.name, none, none⟩

end Fate

/-- The skips of groupings as a whole, without those of their services and components. -/
def groupSkips (skips : List Skip) : List Skip := skips.filter (·.service.isNone)

section Fates

variable (run : UpgradeRun) (site : Site) (pack : Pack)

/-- The work that a plan hands to the stages of a grouping. -/
def handedWork (g : Grouping) : List Work := (planGrouping run site pack g).visit.work

/-- Something is made of the work of a grouping: a task that is not left out is assigned, or there
is a service to check. -/
def Busy (g : Grouping) : Prop :=
  (∃ w ∈ handedWork run site pack g, ∃ t ∈ w.kept,
    assignmentsOf g.kind run.orchestration w t ≠ []) ∨
  (g.kind = .serviceCheck ∨ PlanGroup.checksServices run g = true) ∧
    ∃ w ∈ handedWork run site pack g, w.hosts ≠ []

/-- A group has the name, the kind and the flags of its grouping; all of it may be skipped on a
downgrade. -/
structure Carries (g : Grouping) (group : PlanGroup) : Prop where
  name : group.name = g.name
  kind : group.kind = g.kind
  allowRetry : group.allowRetry = g.allowRetry
  supportsAutoSkip : group.supportsAutoSkip = g.supportsAutoSkip
  skippable : group.skippable = if run.direction = .downgrade then true else g.skippable

/-- A group has a stage, and each of its stages has an assignment. -/
structure Filled (group : PlanGroup) : Prop where
  stages : group.stages ≠ []
  assignments : ∀ s ∈ group.stages, s.assignments ≠ []

/-- When a grouping meets which fate. -/
structure Meets (g : Grouping) (f : Fate) : Prop where
  outOfScope : f = .outOfScope ↔ run.scope.admits g.scope = false
  conditionNotMet : f = .conditionNotMet ↔
    run.scope.admits g.scope = true ∧ ∃ c ∈ g.condition, c.holds site.store = false
  emptyGroup : f = .emptyGroup ↔ Applies run site g ∧ ¬ Busy run site pack g
  planned : ∀ group, f = .planned group → Carries run g group ∧ Filled group

end Fates

variable {run : UpgradeRun} {site : Site} {pack : Pack} {g : Grouping}
  {outcomes : List Outcome} {stages : List Stage}

/-! ## The work of a grouping -/

/-- What a grouping is visited for is what its stages are made of, whether there are any or not. -/
theorem handedWork_eq (applies : Applies run site g) :
    handedWork run site pack g = (visitGrouping run site pack g).work := by
  rcases planGrouping_cases run site pack g with ⟨-, walked⟩ | ⟨out, -⟩
  · rw [handedWork, walked]
    unfold planVisited
    dsimp only
    split
    · exact (List.append_nil _).trans (List.append_nil _)
    · rfl
  · exact absurd applies out

/-- It is what the places of the grouping hand over. -/
theorem handedWork_eq_flatMap (applies : Applies run site g)
    (places : List.Forall₂ (Accounted run site pack g) (walk run pack g) outcomes) :
    handedWork run site pack g = outcomes.flatMap Outcome.works := by
  rw [handedWork_eq applies, visitGrouping_eq]
  exact (all_visitPlace places).1

/-- Stages are made exactly for a grouping that is busy. -/
theorem not_busy_iff (applies : Applies run site g)
    (places : List.Forall₂ (Accounted run site pack g) (walk run pack g) outcomes) :
    ¬ Busy run site pack g ↔ ofWork g.kind run.orchestration (PlanGroup.checksServices run g)
      (outcomes.flatMap Outcome.works) = [] := by
  rw [ofWork_eq_nil_iff, Busy, handedWork_eq_flatMap applies places]
  simp only [not_or, not_and, not_exists, not_not]

/-! ## The fate of a grouping -/

theorem carries_ofGrouping :
    Carries run g ((PlanGroup.ofGrouping run g stages).rendered run site) where
  name := rfl
  kind := rfl
  allowRetry := rfl
  supportsAutoSkip := rfl
  skippable := by
    show (run.direction.isDowngrade || g.skippable) = _
    cases run.direction <;> rfl

theorem filled_rendered {checks : Bool} {works : List Work}
    (staged : ofWork g.kind run.orchestration checks works = stages) (filled : stages ≠ []) :
    Filled ((PlanGroup.ofGrouping run g stages).rendered run site) where
  stages := by simpa [PlanGroup.rendered, PlanGroup.ofGrouping] using filled
  assignments := by
    intro s mem
    obtain ⟨made, inGroup, rfl⟩ := List.mem_map.1 mem
    have assigned : made.assignments ≠ [] := assignments_ne_nil_of_mem_ofWork (staged ▸ inGroup)
    simpa [PlanGroup.renderedStage] using assigned

theorem groupSkips_append (skips skips' : List Skip) :
    groupSkips (skips ++ skips') = groupSkips skips ++ groupSkips skips' := List.filter_append _ _

/-- The skips of places name a service. -/
theorem groupSkips_places (places : List Place) (outcomes : List Outcome) :
    groupSkips (List.zipWith (Outcome.skips g) places outcomes).flatten = [] := by
  induction places generalizing outcomes with
  | nil => rfl
  | cons place rest ih =>
    cases outcomes with
    | nil => rfl
    | cons o os =>
      have here : groupSkips (o.skips g place) = [] := by cases place <;> cases o <;> rfl
      rw [List.zipWith_cons_cons, List.flatten_cons, groupSkips_append, here, ih, List.append_nil]

theorem Applies.inScope (applies : Applies run site g) : ¬ run.scope.admits g.scope = false :=
  fun unscoped => absurd applies.1 (by simp [unscoped])

theorem Applies.conditionMet (applies : Applies run site g) :
    ¬ (run.scope.admits g.scope = true ∧ ∃ c ∈ g.condition, c.holds site.store = false) := by
  rintro ⟨-, c, hc, unmet⟩
  exact absurd (applies.2 c hc) (by simp [unmet])

/-- Every grouping meets a fate, and it comes to the group and to the skip of that fate. -/
theorem exists_fate (run : UpgradeRun) (site : Site) (pack : Pack) (g : Grouping) :
    ∃ f, Meets run site pack g f ∧ (planGrouping run site pack g).group = f.group? ∧
      groupSkips (planGrouping run site pack g).visit.skips = f.skips g := by
  have accounted : GroupAccounted run site pack g _ _ := groupAccounted_planGrouping g
  generalize (planGrouping run site pack g).visit.skips = skips at accounted
  generalize (planGrouping run site pack g).group = group at accounted
  cases accounted with
  | outOfScope unscoped =>
    refine ⟨.outOfScope, ⟨iff_of_true rfl unscoped, iff_of_false nofun ?_, iff_of_false nofun ?_,
      nofun⟩, rfl, rfl⟩
    · rintro ⟨inScope, -⟩
      exact absurd inScope (by simp [unscoped])
    · rintro ⟨applies, -⟩
      exact applies.inScope unscoped
  | @conditionNotMet c inScope hc unmet =>
    refine ⟨.conditionNotMet, ⟨iff_of_false nofun ?_, iff_of_true rfl ⟨inScope, c, hc, unmet⟩,
      iff_of_false nofun ?_, nofun⟩, rfl, rfl⟩
    · simp [inScope]
    · rintro ⟨applies, -⟩
      exact applies.conditionMet ⟨inScope, c, hc, unmet⟩
  | empty applies places stageless =>
    have idle := (not_busy_iff applies places).2 stageless
    refine ⟨.emptyGroup, ⟨iff_of_false nofun applies.inScope,
      iff_of_false nofun applies.conditionMet, iff_of_true rfl ⟨applies, idle⟩, nofun⟩, rfl, ?_⟩
    rw [groupSkips_append, groupSkips_places]
    rfl
  | planned applies places staged filled =>
    have busy : ¬ ¬ Busy run site pack g := by
      rw [not_busy_iff applies places, staged]
      exact filled
    refine ⟨.planned _, ⟨iff_of_false nofun applies.inScope,
      iff_of_false nofun applies.conditionMet, iff_of_false nofun fun idle => busy idle.2, ?_⟩,
      rfl, groupSkips_places _ _⟩
    intro group h
    obtain rfl := Fate.planned.inj h
    exact ⟨carries_ofGrouping, filled_rendered staged filled⟩

/-! ## The fates of a pack -/

/-- The groups of a plan and its skips of whole groupings are those of the fates that the groupings
meet, one after the other. -/
theorem exists_fates (run : UpgradeRun) (site : Site) (pack : Pack) : ∃ fates : List Fate,
    List.Forall₂ (Meets run site pack) (pack.groupings run.direction) fates ∧
    (Plan.of run site pack).groups = fates.filterMap Fate.group? ∧
    groupSkips (Plan.of run site pack).findings.skips =
      (List.zipWith Fate.skips (pack.groupings run.direction) fates).flatten := by
  choose fate meets group skips using exists_fate run site pack
  refine ⟨(pack.groupings run.direction).map fate, ?_, ?_, ?_⟩
  · rw [List.forall₂_map_right_iff, List.forall₂_same]
    exact fun g _ => meets g
  · change (planGroupings run site pack).filterMap (·.group) = _
    rw [planGroupings, List.filterMap_map, List.filterMap_map]
    exact List.filterMap_congr fun g _ => group g
  · change groupSkips (Visit.all (·.visit) (planGroupings run site pack)).skips = _
    rw [Visit.skips_all, planGroupings, List.flatMap_map, groupSkips, List.filter_flatMap,
      List.zipWith_map_right, List.zipWith_self, ← List.flatMap_def]
    exact List.flatMap_congr fun g _ => skips g

end ClusterUpgrade.Plan
