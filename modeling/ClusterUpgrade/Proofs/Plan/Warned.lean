import ClusterUpgrade.Proofs.Pack.Declared
import ClusterUpgrade.Proofs.Plan.Mirror

/-!
# Warnings and skips

A rolling pack is warned of the services that it orders without processing, and a rolling run skips
services without processing. Both look into the same processing, but the check passes over groupings
of service checks, and a run does not. So the warnings predict the skips of a run exactly when every
service that is ordered for its check has processing (`warnings_predict_skips_iff`).
-/

namespace ClusterUpgrade

/-- The direction under which a document has the groupings of a run. -/
def Pack.written (p : Pack) : Direction → String
  | .upgrade => "upgrade"
  | .downgrade => if p.downgrade.isSome then "downgrade" else "upgrade"

/-- Every service that a pack orders in a direction is found in processing only where the pack has
it: it has no reserved name, and none that shows through in the document. -/
def Pack.OrdinaryNames (p : Pack) (direction : Direction) (d : Document) : Prop :=
  ∀ g ∈ p.groupings direction, ∀ s ∈ g.services,
    Reserved.isKnown s.serviceName = false ∧
      s.serviceName ∉ Pack.shownThrough (d.field? "processing")

namespace Plan

/-- The skip of a service without processing. -/
def withoutTasks (g : Grouping) (s : OrderedService) : Skip :=
  ⟨.noServiceTasks, g.name, some s.serviceName, none⟩

/-- The skips of services without processing. -/
def serviceSkips (skips : List Skip) : List Skip := skips.filter (·.reason = .noServiceTasks)

section Predictions

variable (run : UpgradeRun) (site : Site) (pack : Pack)

/-- A rolling run in which every service of a pack takes part and every grouping applies. -/
structure TakesAll : Prop where
  rolling : run.isRolling
  supported : ∀ g ∈ pack.groupings run.direction, ∀ s ∈ g.services, run.supports s.serviceName
  applies : ∀ g ∈ pack.groupings run.direction, Applies run site g

/-- At each place where a pack orders a service, a warning tells exactly whether it is skipped. -/
def Predicted (issues : List Issue) : Prop :=
  ∀ i g j s, (pack.groupings run.direction)[i]? = some g → g.services[j]? = some s →
    (withoutTasks g s ∈ (Plan.of run site pack).findings.skips ↔
      .unprocessedService (Pack.servicePlace (pack.written run.direction) i j) s.serviceName ∈
        issues)

end Predictions

variable {run : UpgradeRun} {site : Site} {pack : Pack} {g : Grouping}

/-! ## Skips -/

theorem serviceSkips_append (as bs : List Skip) :
    serviceSkips (as ++ bs) = serviceSkips as ++ serviceSkips bs := List.filter_append ..

theorem serviceSkips_flatMap {α : Type} (as : List α) (f : α → List Skip) :
    serviceSkips (as.flatMap f) = as.flatMap fun a => serviceSkips (f a) := List.filter_flatMap ..

/-- No component is skipped for want of processing of its service. -/
theorem serviceSkips_component (service component : String) :
    serviceSkips (visitPlace run site pack g (.component service component)).skips = [] := by
  have accounted : ∃ o, Accounted run site pack g (.component service component) o :=
    exists_accounted_component
  obtain ⟨o, accounted⟩ := accounted
  rw [accounted.comesTo.skips]
  cases accounted <;> rfl

theorem serviceSkips_visitService (rolling : run.isRolling) {s : OrderedService}
    (supported : run.supports s.serviceName) :
    serviceSkips (visitService run site pack g s).skips =
      if pack.processing.knows s.serviceName then [] else [withoutTasks g s] := by
  have entered : Entered run pack s.serviceName ↔ pack.processing.knows s.serviceName = true :=
    ⟨fun h => h.2 rolling, fun h => ⟨supported, fun _ => h⟩⟩
  rw [visitService_eq, Visit.skips_all, serviceSkips_flatMap, placesOf]
  by_cases listed : pack.processing.knows s.serviceName = true
  · rw [if_pos (entered.2 listed), if_pos listed, List.flatMap_map]
    exact List.flatMap_eq_nil_iff.2 fun c _ => serviceSkips_component _ c
  · rw [if_neg (mt entered.1 listed), if_neg listed, List.flatMap_singleton, visitPlace,
      if_pos supported]
    rfl

theorem flatMap_unless {α β : Type} (p : α → Bool) (f : α → β) (as : List α) :
    (as.flatMap fun a => if p a then [] else [f a]) = (as.filter fun a => !p a).map f := by
  induction as with
  | nil => rfl
  | cons a rest ih => cases h : p a <;> simp [h, ih]

/-- The services of a grouping that are skipped for want of processing, in the order of the walk. -/
theorem serviceSkips_planGrouping (rolling : run.isRolling)
    (supported : ∀ s ∈ g.services, run.supports s.serviceName) (applies : Applies run site g) :
    serviceSkips (planGrouping run site pack g).visit.skips =
      ((servicesOf run g).filter fun s => !pack.processing.knows s.serviceName).map
        (withoutTasks g) := by
  have visited : serviceSkips (planGrouping run site pack g).visit.skips =
      serviceSkips (visitGrouping run site pack g).skips := by
    rcases planGrouping_cases run site pack g with ⟨-, walked⟩ | ⟨out, -⟩
    · rw [walked, planVisited]
      split
      · simp only [Visit.skips_append, serviceSkips_append]
        exact (List.append_nil _).trans (List.append_nil _)
      · rfl
    · exact absurd applies out
  rw [visited, visitGrouping, Visit.skips_all, serviceSkips_flatMap, ← flatMap_unless]
  exact List.flatMap_congr fun s mem =>
    serviceSkips_visitService rolling (supported s (mem_servicesOf.1 mem))

/-- Where services have ordinary names, the processing that is found for them is that of the pack.
-/
theorem knows_eq_of_ordinaryNames {d : Document} {s : OrderedService}
    (ordinary : pack.OrdinaryNames run.direction d) (hg : g ∈ pack.groupings run.direction)
    (hs : s ∈ g.services) :
    pack.processing.knows s.serviceName = pack.processing.has s.serviceName := by
  have unreserved := (ordinary g hg s hs).1
  rw [Reserved.isKnown_eq_isInherited] at unreserved
  rw [ProcessingMap.knows, unreserved, Bool.or_false]

/-- The services of a plan that are skipped for want of processing, in the order of the walk. -/
theorem serviceSkips_plan (all : TakesAll run site pack) :
    serviceSkips (Plan.of run site pack).findings.skips =
      (pack.groupings run.direction).flatMap fun g =>
        ((servicesOf run g).filter fun s => !pack.processing.knows s.serviceName).map
          (withoutTasks g) := by
  change serviceSkips (Visit.all (·.visit) (planGroupings run site pack)).skips = _
  rw [Visit.skips_all, serviceSkips_flatMap, planGroupings, List.flatMap_map]
  exact List.flatMap_congr fun g mem =>
    serviceSkips_planGrouping all.rolling (all.supported g mem) (all.applies g mem)

theorem mem_skips_iff (all : TakesAll run site pack) {s : OrderedService}
    (hg : g ∈ pack.groupings run.direction) (hs : s ∈ g.services) :
    withoutTasks g s ∈ (Plan.of run site pack).findings.skips ↔
      pack.processing.knows s.serviceName = false := by
  have among : withoutTasks g s ∈ (Plan.of run site pack).findings.skips ↔
      withoutTasks g s ∈ serviceSkips (Plan.of run site pack).findings.skips := by
    simp [serviceSkips, withoutTasks]
  rw [among, serviceSkips_plan all]
  simp only [List.mem_flatMap, List.mem_map, List.mem_filter, mem_servicesOf, Bool.not_eq_true']
  constructor
  · rintro ⟨g', -, s', ⟨-, bare⟩, same⟩
    have named : s'.serviceName = s.serviceName := Option.some.inj (congrArg Skip.service same)
    rwa [← named]
  · intro bare
    exact ⟨g, hg, s, ⟨hs, bare⟩, rfl⟩

/-! ## Warnings -/

/-- What is warned of at a place where a direction of a document orders a service. -/
theorem mem_unprocessedIn_place_iff {processing : ProcessingMap} {through : List String}
    {direction direction' : String} {gs : List Grouping} {i j : Nat} {service : String} :
    .unprocessedService (Pack.servicePlace direction i j) service ∈
        Pack.unprocessedIn processing through direction' gs ↔
      direction = direction' ∧ ∃ g s, gs[i]? = some g ∧ g.kind ≠ .serviceCheck ∧
        g.services[j]? = some s ∧ Pack.isProcessed processing through s.serviceName = false ∧
        service = s.serviceName := by
  rw [Pack.mem_unprocessedIn_iff]
  constructor
  · rintro ⟨i', g, j', s, hg, kind, hs, bare, same⟩
    obtain ⟨place, named⟩ := Issue.unprocessedService.inj same
    obtain ⟨rfl, rfl, rfl⟩ := Pack.servicePlace_inj place
    exact ⟨rfl, g, s, hg, kind, hs, bare, named⟩
  · rintro ⟨rfl, g, s, hg, kind, hs, bare, rfl⟩
    exact ⟨i, g, j, s, hg, kind, hs, bare, rfl⟩

/-- A document has the groupings of a run in one of the two directions. -/
theorem written_cases (pack : Pack) (direction : Direction) :
    pack.written direction = "upgrade" ∧ pack.groupings direction = pack.upgrade ∨
      pack.written direction = "downgrade" ∧
        pack.groupings direction = pack.downgrade.getD [] := by
  cases direction with
  | upgrade => exact Or.inl ⟨rfl, rfl⟩
  | downgrade =>
    rw [Pack.written, Pack.groupings]
    cases pack.downgrade with
    | none => exact Or.inl ⟨rfl, rfl⟩
    | some gs => exact Or.inr ⟨rfl, rfl⟩

theorem mem_warnings_iff {through : List String} {i j : Nat} {s : OrderedService}
    {direction : Direction} (rolling : pack.orchestration = .rolling)
    (hg : (pack.groupings direction)[i]? = some g) (hs : g.services[j]? = some s) :
    .unprocessedService (Pack.servicePlace (pack.written direction) i j) s.serviceName ∈
        pack.warnings through ↔
      g.kind ≠ .serviceCheck ∧ Pack.isProcessed pack.processing through s.serviceName = false := by
  rw [Pack.warnings, if_pos rolling, List.mem_append, mem_unprocessedIn_place_iff,
    mem_unprocessedIn_place_iff]
  rcases written_cases pack direction with ⟨written, there⟩ | ⟨written, there⟩ <;>
    rw [there] at hg <;> simp [written, hg, hs]

/-- At a place where a pack orders a service, a warning can be told from a skip only in a grouping
of service checks. -/
theorem predicted_at_iff {d : Document} {i j : Nat} {s : OrderedService}
    (accepted : (Pack.check d).value = some pack) (rolling : pack.orchestration = .rolling)
    (all : TakesAll run site pack) (ordinary : pack.OrdinaryNames run.direction d)
    (hg : (pack.groupings run.direction)[i]? = some g) (hs : g.services[j]? = some s) :
    (withoutTasks g s ∈ (Plan.of run site pack).findings.skips ↔
      .unprocessedService (Pack.servicePlace (pack.written run.direction) i j) s.serviceName ∈
        (Pack.check d).issues) ↔
      (g.kind = .serviceCheck → pack.processing.has s.serviceName) := by
  have inPack := List.mem_of_getElem? hg
  have inGroup := List.mem_of_getElem? hs
  obtain ⟨unreserved, unshown⟩ := ordinary g inPack s inGroup
  rw [Pack.check_of_declared (Pack.check_value_iff.1 accepted), mem_skips_iff all inPack inGroup,
    knows_eq_of_ordinaryNames ordinary inPack inGroup, mem_warnings_iff rolling hg hs,
    Pack.isProcessed, unreserved]
  cases pack.processing.has s.serviceName <;> simp [unshown]

/-- **Warnings predict skips.** A rolling run that takes all of a rolling pack skips each service
that is ordered without processing, once for each time that it is ordered. At every such place there
has been a warning, and nowhere else, exactly when all services that are ordered for their check
have processing. -/
theorem warnings_predict_skips_iff {d : Document} (accepted : (Pack.check d).value = some pack)
    (rolling : pack.orchestration = .rolling) (all : TakesAll run site pack)
    (ordinary : pack.OrdinaryNames run.direction d) :
    serviceSkips (Plan.of run site pack).findings.skips =
        ((pack.groupings run.direction).flatMap fun g =>
          ((servicesOf run g).filter fun s => !pack.processing.has s.serviceName).map
            (withoutTasks g)) ∧
      (Predicted run site pack (Pack.check d).issues ↔
        ∀ g ∈ pack.groupings run.direction, g.kind = .serviceCheck →
          ∀ s ∈ g.services, pack.processing.has s.serviceName) := by
  refine ⟨?_, ?_, ?_⟩
  · rw [serviceSkips_plan all]
    refine List.flatMap_congr fun g inPack => congrArg _ (List.filter_congr fun s inGroup => ?_)
    rw [knows_eq_of_ordinaryNames ordinary inPack (mem_servicesOf.1 inGroup)]
  · intro predicted g inPack kind s inGroup
    obtain ⟨i, hg⟩ := List.mem_iff_getElem?.1 inPack
    obtain ⟨j, hs⟩ := List.mem_iff_getElem?.1 inGroup
    exact (predicted_at_iff accepted rolling all ordinary hg hs).1 (predicted i g j s hg hs) kind
  · intro listed i g j s hg hs
    refine (predicted_at_iff accepted rolling all ordinary hg hs).2 fun kind => ?_
    exact listed g (List.mem_of_getElem? hg) kind s (List.mem_of_getElem? hs)

/-- The document of a rolling pack that orders ZooKeeper without processing. -/
def orderingDocument (kind : String) : Document :=
  .record [("name", .text "zookeeper"), ("type", .text "ROLLING"),
    ("targetStack", .text "HDP-2.3"),
    ("groups", .record [("upgrade", .list [.record [("name", .text "SERVERS"), ("kind", .text kind),
      ("services", .list [.record [("serviceName", .text "ZOOKEEPER"),
        ("components", .texts ["ZOOKEEPER_SERVER"])]])]])])]

/-- The pack that it declares. -/
def orderingPack (kind : GroupingKind) : Pack where
  name := "zookeeper"
  orchestration := .rolling
  targetStack := "HDP-2.3"
  upgrade := [
    { name := "SERVERS", title := "SERVERS", scope := .complete, condition := none
      skippable := false, allowRetry := true, supportsAutoSkip := true, performServiceCheck := true
      services := [⟨"ZOOKEEPER", ["ZOOKEEPER_SERVER"]⟩], kind }]
  downgrade := none
  processing := .empty

theorem takesAll_orderingPack {kind : GroupingKind} :
    TakesAll mastersRun mastersPair.site (orderingPack kind) where
  rolling := rfl
  supported := List.forall_mem_singleton.2 (List.forall_mem_singleton.2 rfl)
  applies := List.forall_mem_singleton.2 ⟨rfl, nofun⟩

theorem ordinaryNames_orderingPack {kind : GroupingKind} {word : String} :
    (orderingPack kind).OrdinaryNames .upgrade (orderingDocument word) :=
  List.forall_mem_singleton.2 (List.forall_mem_singleton.2
    ⟨by decide +kernel, List.not_mem_nil⟩)

theorem warnings_predict_skips_servers :
    (Pack.check (orderingDocument "default")).value = some (orderingPack .standard) ∧
      Predicted mastersRun mastersPair.site (orderingPack .standard)
        (Pack.check (orderingDocument "default")).issues ∧
      serviceSkips (Plan.of mastersRun mastersPair.site (orderingPack .standard)).findings.skips =
        [⟨.noServiceTasks, "SERVERS", some "ZOOKEEPER", none⟩] := by
  have accepted : (Pack.check (orderingDocument "default")).value =
      some (orderingPack .standard) := by decide +kernel
  obtain ⟨skips, predicted⟩ := warnings_predict_skips_iff accepted rfl takesAll_orderingPack
    ordinaryNames_orderingPack
  exact ⟨accepted, predicted.2 (List.forall_mem_singleton.2 nofun), skips⟩

/-- A service that is ordered for its check is skipped without warning. -/
theorem skips_unwarned_check :
    (Pack.check (orderingDocument "service-check")).value = some (orderingPack .serviceCheck) ∧
      (orderingPack .serviceCheck).orchestration = .rolling ∧
      TakesAll mastersRun mastersPair.site (orderingPack .serviceCheck) ∧
      ¬ Predicted mastersRun mastersPair.site (orderingPack .serviceCheck)
        (Pack.check (orderingDocument "service-check")).issues := by
  have accepted : (Pack.check (orderingDocument "service-check")).value =
      some (orderingPack .serviceCheck) := by decide +kernel
  refine ⟨accepted, rfl, takesAll_orderingPack, fun predicted => ?_⟩
  have listed := (predicted_at_iff accepted rfl takesAll_orderingPack ordinaryNames_orderingPack
    rfl rfl).1 (predicted 0 _ 0 _ rfl rfl) rfl
  cases listed

end Plan

end ClusterUpgrade
