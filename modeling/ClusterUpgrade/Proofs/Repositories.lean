import ClusterUpgrade.Proofs.Repositories.Moved
import ClusterUpgrade.Proofs.Steps
import ClusterUpgrade.Proofs.Topology

/-!
# Moving to new versions

The move of a run takes its services to their target versions, one after the other. Where names tell
services, components and hosts apart, each step comes to the moved store
(`eval_moveService_of_canMove`), and so do all steps (`eval_steps_of_canMove`). A move fails only
for a service that has no target or is not there (`canMove_of_eval_steps`), so one that succeeds
succeeds again and then changes nothing (`eval_steps_moved`), as long as the store can be copied
(`repositories_moved`). The repositories of components are kept in records, where some names cannot
be written (`repositories_moved_recordName`).
-/

namespace ClusterUpgrade

open Operation

/-! ## The steps of a run -/

namespace Repositories

open Store

variable {run : UpgradeRun} {services : List String} {service : String} {s : Store}

/-- A service of a store with distinct names is moved. -/
theorem eval_moveService_of_canMove (catalog : StackMetadata) (distinct : s.NamesDistinct)
    (can : s.CanMove run service) : eval (moveService run catalog service) s =
      .ok ((s.movesOf run service).map (Move.transition catalog),
        s.moved run catalog [service]) := by
  obtain ⟨there, hasTarget⟩ := can
  obtain ⟨x, mem, rfl⟩ := List.mem_map.1 there
  obtain ⟨target, hasTarget⟩ := Option.isSome_iff_exists.1 hasTarget
  obtain ⟨before, later, split, fresh_before, fresh_later⟩ := distinct.exists_split mem
  have moves : s.movesOf run x.name = x.moves target := by
    rw [movesOf, distinct.service?_eq mem, hasTarget]
  have at_place := eval_moveService catalog target (s.servicePlace fresh_before later) hasTarget
    (distinct.components x mem) (distinct.hosts x mem)
  have others {l : List ServiceState} (fresh : ∀ y ∈ l, y.name ≠ x.name) :
      l.map (ServiceState.moved run catalog [x.name]) = l := by
    refine (List.map_congr_left fun y hy => ?_).trans (List.map_id l)
    exact ServiceState.moved_of_not_mem (by simpa using fresh y hy)
  have itself : x.moved run catalog [x.name] = x.movedTo catalog target :=
    ServiceState.moved_of_some ((if_pos List.mem_cons_self).trans hasTarget)
  have services : s.services.map (ServiceState.moved run catalog [x.name]) =
      before ++ x.movedTo catalog target :: later := by
    rw [split, List.map_append, List.map_cons, others fresh_before, others fresh_later, itself]
  have start : ({ s with services := before ++ x :: later } : Store) = s := by rw [← split]
  rw [start] at at_place
  rw [at_place, Store.moved, services, List.flatMap_singleton, moves]

theorem eval_each_moveService (catalog : StackMetadata) (distinct : s.NamesDistinct)
    (once : services.Nodup) (can : ∀ service ∈ services, s.CanMove run service) :
    eval (Operation.each (moveService run catalog) services) s =
      .ok (services.map fun service => (s.movesOf run service).map (Move.transition catalog),
        s.moved run catalog services) := by
  induction services generalizing s with
  | nil =>
    have untouched : s.services.map (ServiceState.moved run catalog []) = s.services :=
      List.map_congr_left (fun x _ => ServiceState.moved_of_not_mem List.not_mem_nil) |>.trans
        (List.map_id _)
    rw [Store.moved, untouched]
    rfl
  | cons service rest ih =>
    obtain ⟨fresh, once⟩ := List.nodup_cons.1 once
    obtain ⟨can_first, can⟩ := List.forall_mem_cons.1 can
    have first := eval_moveService_of_canMove catalog distinct can_first
    have others := ih (distinct.moved run catalog [service]) once
      fun other mem => canMove_moved.2 (can other mem)
    have moves : (rest.map fun other =>
        ((s.moved run catalog [service]).movesOf run other).map (Move.transition catalog)) =
          rest.map fun other => (s.movesOf run other).map (Move.transition catalog) := by
      refine List.map_congr_left fun other mem => ?_
      have other_service : other ∉ [service] :=
        fun same => fresh (List.mem_singleton.1 same ▸ mem)
      rw [movesOf_moved_of_not_mem other_service]
    rw [Operation.each, eval_bind_of_ok first, eval_bind_of_ok others, moved_cons fresh, moves]
    rfl

/-- A service that has no target or is not there cannot be moved. -/
theorem canMove_of_eval {catalog : StackMetadata} {p : List ComponentTransition × Store}
    (h : eval (moveService run catalog service) s = .ok p) : s.CanMove run service := by
  have version := eval_version_target run service s
  cases hasTarget : run.targets.get? service with
  | none =>
    rw [hasTarget] at version
    rw [moveService, eval_bind_of_error version] at h
    cases h
  | some target =>
    rw [hasTarget] at version
    rw [moveService, eval_bind_of_ok version] at h
    refine ⟨?_, by rw [hasTarget]; rfl⟩
    by_contra absent
    have no_place : s.services.findIdx? (·.name = service) = none := by
      rw [List.findIdx?_eq_none_iff]
      exact fun x mem => decide_eq_false fun named => absent (List.mem_map.2 ⟨x, mem, named⟩)
    have refused : eval (Transition.writing (·.setServiceRepository service target)) s =
        .error (.refused (.noService service s.clusterName)) := by
      rw [Transition.writing, eval_writing, setServiceRepository, updateService,
        updateFirst_of_none _ no_place]
      rfl
    rw [eval_bind_of_error refused] at h
    cases h

theorem canMove_of_eval_each {catalog : StackMetadata} (distinct : s.NamesDistinct)
    {p : List (List ComponentTransition) × Store}
    (h : eval (Operation.each (moveService run catalog) services) s = .ok p) :
    ∀ service ∈ services, s.CanMove run service := by
  induction services generalizing s p with
  | nil => exact nofun
  | cons service rest ih =>
    cases hfirst : eval (moveService run catalog service) s with
    | error e =>
      rw [Operation.each, eval_bind_of_error hfirst] at h
      cases h
    | ok first =>
      have can := canMove_of_eval hfirst
      rw [eval_moveService_of_canMove catalog distinct can] at hfirst
      rw [Operation.each, eval_bind_of_ok (eval_moveService_of_canMove catalog distinct can)] at h
      cases hothers : eval (Operation.each (moveService run catalog) rest)
          (s.moved run catalog [service]) with
      | error e =>
        rw [eval_bind_of_error hothers] at h
        cases h
      | ok others =>
        have later := ih (distinct.moved run catalog [service]) hothers
        exact List.forall_mem_cons.2 ⟨can, fun other mem => canMove_moved.1 (later other mem)⟩

end Repositories

/-! ## The whole move -/

section Run

variable {run : UpgradeRun} (catalog : StackMetadata) {s : Store}

/-- A move that can be made comes to the moved store. -/
theorem eval_steps_of_canMove (distinct : s.NamesDistinct)
    (can : ∀ service ∈ run.services, s.CanMove run service) :
    eval (Repositories.steps run catalog) s =
      .ok ((run.services.flatMap (s.movesOf run)).map (Move.transition catalog),
        s.moved run catalog run.services) := by
  have each := Repositories.eval_each_moveService catalog distinct run.nodup can
  rw [Repositories.steps, eval_bind_of_ok each, eval_pure, List.map_flatMap, List.flatMap_def]

/-- Steps that succeed have been made for each service, so each could be moved. -/
theorem canMove_of_eval_steps (distinct : s.NamesDistinct) {p : List ComponentTransition × Store}
    (h : eval (Repositories.steps run catalog) s = .ok p) :
    ∀ service ∈ run.services, s.CanMove run service := by
  cases heach : eval (Operation.each (Repositories.moveService run catalog) run.services) s with
  | ok p => exact Repositories.canMove_of_eval_each distinct heach
  | error e =>
    rw [Repositories.steps, eval_bind_of_error heach] at h
    cases h

/-- The same steps again leave the moved store as it is, unless a function was put into it. -/
theorem eval_steps_moved (distinct : s.NamesDistinct)
    (can : ∀ service ∈ run.services, s.CanMove run service)
    (kept : ∀ m ∈ run.services.flatMap (s.movesOf run), Reserved.isFunction m.service = true →
      s.componentRepositories.has m.service = true) :
    eval (Repositories.steps run catalog) (s.moved run catalog run.services) =
      .ok (((run.services.flatMap (s.movesOf run)).map (Move.again catalog)).map
        (Move.transition catalog), s.moved run catalog run.services) := by
  have can' : ∀ service ∈ run.services, (s.moved run catalog run.services).CanMove run service :=
    fun service mem => Store.canMove_moved.2 (can service mem)
  have steps := eval_steps_of_canMove catalog (distinct.moved run catalog run.services) can'
  rwa [Store.moved_moved catalog kept, Store.moves_moved] at steps

/-- ZooKeeper with a server on each of two hosts, and with clients that report no version. -/
def zooKeeperPair : Topology :=
  { Topology.sharedSite with
    services := [⟨"ZOOKEEPER", none, false, none,
        [⟨"ZOOKEEPER_SERVER", none, true, ⟨["h1", "h2"], none, none, []⟩⟩,
          ⟨"ZOOKEEPER_CLIENT", none, false, ⟨["h2", "h3"], none, none, []⟩⟩]⟩,
      ⟨"HDFS", none, false, none, []⟩] }

/-- A run that upgrades ZooKeeper only. -/
def zooKeeperRun : UpgradeRun :=
  .ofServices .upgrade .rolling .partly ⟨"2.3.0.0", ⟨"HDP", "2.3"⟩⟩
    (.ofList [("ZOOKEEPER", ⟨"2.2.0.0", ⟨"HDP", "2.2"⟩⟩)])
    (.ofList [("ZOOKEEPER", ⟨"2.3.0.0", ⟨"HDP", "2.3"⟩⟩)]) ["ZOOKEEPER"]

end Run

end ClusterUpgrade
