import ClusterUpgrade.Proofs.Stage

/-!
# The items of a group

Broken down into single hosts and tasks (`Stage.items`), the stages of a standard group and those of
a function group hold the same. A rolling restart, which goes host by host, breaks down into the
same items as one stage on all hosts (`items_assignmentsOf`). The stages of either group therefore
hold each task of the work that is not left out once on each host, and the items of the checks
(`perm_items_ofWork`).
-/

namespace ClusterUpgrade

/-- One task of a component on one host. -/
structure Item where
  service : String
  component : String
  host : String
  task : Task
  params : Record String
  deriving DecidableEq

/-- The items of an assignment: each of its tasks on each of its hosts. -/
def Assignment.items (a : Assignment) : List Item :=
  a.hosts.flatMap fun host => a.tasks.map fun task =>
    { service := a.service, component := a.component, host, task, params := a.params }

/-- The items of some work: each task that is not left out, on each host. -/
def Work.items (w : Work) : List Item := w.kept.flatMap fun t => (w.assign w.hosts t).items

namespace Stage

/-- The items of the assignments of a stage. -/
def items (s : Stage) : List Item := s.assignments.flatMap (·.items)

variable {kind : GroupingKind} {orchestration : Orchestration} {performChecks : Bool}
  {works : List Work}

theorem items_assign (w : Work) (hosts : List String) (t : Task) :
    (w.assign hosts t).items = hosts.flatMap fun host => (w.assign [host] t).items := by
  simp [Assignment.items, Work.assign]

/-- Whether a task goes to all hosts at once or host by host, its items are the same. -/
theorem items_assignmentsOf (stages : kind ≠ .serviceCheck) (w : Work) (t : Task) :
    (assignmentsOf kind orchestration w t).flatMap (·.items) = (w.assign w.hosts t).items := by
  unfold assignmentsOf
  cases kind with
  | standard =>
    unfold ofTaskRolling
    split_ifs with rolls
    · simp only [ofTask, List.flatMap_map, List.flatMap_singleton, List.flatMap_assoc]
      exact (items_assign w w.hosts t).symm
    · simp only [ofTask, List.flatMap_singleton]
  | function f => exact List.flatMap_singleton _ _
  | serviceCheck => exact absurd rfl stages

/-- A group holds the items of its work and those of its checks. -/
theorem perm_items_ofWork (stages : kind ≠ .serviceCheck) :
    ((ofWork kind orchestration performChecks works).flatMap (·.items)).Perm
      (works.flatMap (·.items) ++ (addedChecks performChecks works).flatMap (·.items)) := by
  have assigned : (((ofWork kind orchestration performChecks works).flatMap
      (·.assignments)).flatMap (·.items)).Perm _ :=
    List.Perm.flatMap_right _ (perm_assignments_ofWork stages)
  rw [List.flatMap_append] at assigned
  simp only [List.flatMap_assoc, items_assignmentsOf stages] at assigned
  exact assigned

/-- **The same work.** Whatever the orchestrations of their runs, a standard and a function group
hold the same items for the same work and with the same checks. They only stage them differently. -/
theorem same_items (f : FunctionName) (orchestration orchestration' : Orchestration)
    (performChecks : Bool) (works : List Work) :
    ((ofWork .standard orchestration performChecks works).flatMap (·.items)).Perm
      ((ofWork (.function f) orchestration' performChecks works).flatMap (·.items)) := by
  have of_standard : ((ofWork .standard orchestration performChecks works).flatMap (·.items)).Perm
      _ := perm_items_ofWork nofun
  have of_function : ((ofWork (.function f) orchestration' performChecks works).flatMap
      (·.items)).Perm _ := perm_items_ofWork nofun
  exact of_standard.trans of_function.symm

end Stage

end ClusterUpgrade
