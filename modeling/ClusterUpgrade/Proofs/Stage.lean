import ClusterUpgrade.Plan.Stage
import ClusterUpgrade.Proofs.Distinct
import Mathlib.Data.List.Perm.Basic

/-!
# What stages are made of

The stages of a group assign each task of its work to hosts, and nothing else but the checks
(`perm_assignments_ofWork`). A standard group has them in the order of the work, and a function
group rearranges them by position and kind. The hosts of a task are those of its work
(`exists_host_assignmentsOf`). A group has no stages exactly when nothing is assigned for its work
and there is nothing to check (`ofWork_eq_nil_iff`).
-/

namespace ClusterUpgrade.Stage

/-- What a group assigns for one task of some work. -/
def assignmentsOf (kind : GroupingKind) (orchestration : Orchestration) (w : Work) (t : Task) :
    List Assignment :=
  match kind with
  | .standard => (ofTaskRolling orchestration w t).flatMap (·.assignments)
  | .function _ => [w.assign w.hosts t]
  | .serviceCheck => []

variable {kind : GroupingKind} {orchestration : Orchestration} {performChecks : Bool} {w : Work}
  {works : List Work} {t : Task} {s : Stage}

/-! ## One task -/

theorem exists_host_assignmentsOf {host : String} (stages : kind ≠ .serviceCheck) :
    (∃ a ∈ assignmentsOf kind orchestration w t, host ∈ a.hosts) ↔ host ∈ w.hosts := by
  unfold assignmentsOf
  cases kind with
  | standard =>
    unfold ofTaskRolling
    split_ifs <;> simp [ofTask, Work.assign]
  | function f => simp [Work.assign]
  | serviceCheck => exact absurd rfl stages

/-! ## Standard groups -/

theorem assignments_standard (works : List Work) :
    (standard orchestration works).flatMap (·.assignments) =
      works.flatMap fun w => w.kept.flatMap (assignmentsOf .standard orchestration w) := by
  simp only [standard, List.flatMap_assoc]
  rfl

theorem standard_append_cons (works works' : List Work) (w : Work) :
    standard orchestration (works ++ w :: works') = standard orchestration works ++
      (w.kept.flatMap (ofTaskRolling orchestration w) ++ standard orchestration works') := by
  rw [standard, List.flatMap_append, List.flatMap_cons]
  rfl

/-- A stage of a standard group is made for one task. If that is a restart in a rolling run, it has
one host only. -/
theorem of_mem_standard (h : s ∈ standard orchestration works) :
    ∃ w ∈ works, ∃ t ∈ w.kept, ∃ hosts, s = ofTask w t hosts ∧
      (t.kind = .restart → orchestration = .rolling → ∃ host, hosts = [host]) := by
  obtain ⟨w, mem, h⟩ := List.mem_flatMap.1 h
  obtain ⟨t, kept, h⟩ := List.mem_flatMap.1 h
  unfold ofTaskRolling at h
  split_ifs at h with rolls
  · obtain ⟨host, -, rfl⟩ := List.mem_map.1 h
    exact ⟨w, mem, t, kept, [host], rfl, fun _ _ => ⟨host, rfl⟩⟩
  · refine ⟨w, mem, t, kept, w.hosts, List.mem_singleton.1 h, fun restarts rolling => ?_⟩
    exact absurd ⟨restarts, rolling⟩ rolls

/-! ## Function groups -/

/-- The task of some work at a position, unless it is left out. -/
def entryAt? (position : Nat) (w : Work) : Option (Work × Task) :=
  (w.tasks[position]?).bind fun t => if w.leavesOut t then none else some (w, t)

theorem column_cons (w : Work) (works : List Work) (position : Nat) :
    column (w :: works) position = (entryAt? position w).toList ++ column works position := by
  change (w :: works).filterMap (entryAt? position) = _
  rw [List.filterMap_cons]
  cases entryAt? position w <;> rfl

theorem foldl_max_le_iff {n bound : Nat} :
    works.foldl (fun n w => max n w.tasks.length) n ≤ bound ↔
      n ≤ bound ∧ ∀ w ∈ works, w.tasks.length ≤ bound := by
  induction works generalizing n with
  | nil => simp
  | cons w rest ih => rw [List.foldl_cons, ih, Nat.max_le, List.forall_mem_cons, and_assoc]

theorem length_le_depth (mem : w ∈ works) : w.tasks.length ≤ depth works :=
  (foldl_max_le_iff.1 (Nat.le_refl (depth works))).2 w mem

/-- The tasks of some work at its positions are those that are not left out. -/
theorem filterMap_entryAt? {n : Nat} (deep : w.tasks.length ≤ n) :
    (List.range n).filterMap (fun i => entryAt? i w) = w.kept.map fun t => (w, t) := by
  have positions : (List.range n).filterMap (fun i => w.tasks[i]?) = w.tasks := by
    rw [filterMap_getElem?_range, List.take_of_length_le deep]
  have entries := congrArg
    (List.filterMap fun t => if w.leavesOut t then none else some (w, t)) positions
  rw [List.filterMap_filterMap] at entries
  refine Eq.trans entries ?_
  rw [Work.kept, ← List.filterMap_eq_map, List.filterMap_filter]
  congr 1
  funext t
  cases w.leavesOut t <;> rfl

/-- Going through work position by position only rearranges it. -/
theorem perm_columns (works : List Work) (n : Nat) : ((List.range n).flatMap (column works)).Perm
    (works.flatMap fun w => (List.range n).filterMap fun i => entryAt? i w) := by
  induction works with
  | nil => simp [column]
  | cons w rest ih =>
    rw [List.flatMap_cons, List.filterMap_eq_flatMap_toList]
    have split : column (w :: rest) = fun i => (entryAt? i w).toList ++ column rest i := by
      funext i
      exact column_cons w rest i
    rw [split]
    exact (List.flatMap_append_perm _ _ _).symm.trans (ih.append_left _)

theorem assignments_ofKind? (entries : List (Work × Task)) (k : TaskKind) :
    (ofKind? entries k).toList.flatMap (·.assignments) =
      (entries.filter (·.2.kind = k)).map fun e => e.1.assign e.1.hosts e.2 := by
  unfold ofKind?
  cases entries.filter (·.2.kind = k) with
  | nil => rfl
  | cons e rest => simp

/-- Sorting entries by the kind of their task only rearranges them. -/
theorem perm_flatMap_filter {kinds : List TaskKind} (distinct : kinds.Nodup)
    (entries : List (Work × Task)) :
    (kinds.flatMap fun k => entries.filter (·.2.kind = k)).Perm
      (entries.filter (·.2.kind ∈ kinds)) := by
  induction kinds with
  | nil => simp
  | cons k rest ih =>
    obtain ⟨fresh, distinct⟩ := List.nodup_cons.1 distinct
    -- The entries of the first kind come first, and those of the other kinds stay behind.
    have parts := List.filter_append_perm (fun e : Work × Task => decide (e.2.kind = k))
      (entries.filter (·.2.kind ∈ k :: rest))
    have first : (entries.filter (·.2.kind ∈ k :: rest)).filter (·.2.kind = k) =
        entries.filter (·.2.kind = k) := by
      rw [List.filter_filter]
      refine List.filter_congr fun e _ => ?_
      by_cases same : e.2.kind = k <;> simp [same]
    have others : (entries.filter (·.2.kind ∈ k :: rest)).filter (fun e => !decide (e.2.kind = k)) =
        entries.filter (·.2.kind ∈ rest) := by
      rw [List.filter_filter]
      refine List.filter_congr fun e _ => ?_
      by_cases same : e.2.kind = k
      · simp [same, fresh]
      · simp [same]
    rw [first, others] at parts
    rw [List.flatMap_cons]
    exact ((ih distinct).append_left _).trans parts

theorem perm_assignments_ofColumn (entries : List (Work × Task)) :
    ((ofColumn entries).flatMap (·.assignments)).Perm
      (entries.map fun e => e.1.assign e.1.hosts e.2) := by
  have kinds : ∀ e ∈ entries, e.2.kind ∈ distinct (entries.map (·.2.kind)) :=
    fun e mem => mem_distinct.2 (List.mem_map_of_mem mem)
  have sorted := perm_flatMap_filter (nodup_distinct (entries.map (·.2.kind))) entries
  rw [List.filter_eq_self.2 (by simpa using kinds)] at sorted
  have assigned := sorted.map fun e => e.1.assign e.1.hosts e.2
  rw [List.map_flatMap] at assigned
  unfold ofColumn
  rw [List.filterMap_eq_flatMap_toList, List.flatMap_assoc]
  simpa only [assignments_ofKind?] using assigned

/-- A function group assigns each task of its work that is not left out once, on all its hosts. -/
theorem perm_assignments_sideBySide (works : List Work) :
    ((sideBySide works).flatMap (·.assignments)).Perm
      (works.flatMap fun w => w.kept.map fun t => w.assign w.hosts t) := by
  have columns := (perm_columns works (depth works)).map fun e => e.1.assign e.1.hosts e.2
  rw [List.map_flatMap, List.map_flatMap] at columns
  have positions : ∀ w ∈ works,
      ((List.range (depth works)).filterMap fun i => entryAt? i w).map
        (fun e => e.1.assign e.1.hosts e.2) = w.kept.map fun t => w.assign w.hosts t := by
    intro w mem
    rw [filterMap_entryAt? (length_le_depth mem), List.map_map]
    rfl
  rw [List.flatMap_congr positions] at columns
  unfold sideBySide
  rw [List.flatMap_assoc]
  exact (List.Perm.flatMap_left _ fun i _ => perm_assignments_ofColumn _).trans columns

/-! ## All groups -/

theorem ofWork_standard : ofWork .standard orchestration performChecks works =
    standard orchestration works ++ addedChecks performChecks works := rfl

theorem ofWork_function {f : FunctionName} :
    ofWork (.function f) orchestration performChecks works =
      sideBySide works ++ addedChecks performChecks works := rfl

/-- A group assigns each task of its work that is not left out, and adds its checks. -/
theorem perm_assignments_ofWork (stages : kind ≠ .serviceCheck) :
    ((ofWork kind orchestration performChecks works).flatMap (·.assignments)).Perm
      ((works.flatMap fun w => w.kept.flatMap (assignmentsOf kind orchestration w)) ++
        (addedChecks performChecks works).flatMap (·.assignments)) := by
  cases kind with
  | standard => rw [ofWork_standard, List.flatMap_append, assignments_standard]
  | function f =>
    rw [ofWork_function, List.flatMap_append]
    refine List.Perm.append_right _ ((perm_assignments_sideBySide works).trans (.of_eq ?_))
    refine List.flatMap_congr fun w _ => ?_
    exact List.map_eq_flatMap
  | serviceCheck => exact absurd rfl stages

/-! ## Groups without stages -/

/-- The stage of a kind of task at a position has at least one assignment. -/
theorem assignments_ne_nil_of_mem_ofColumn {entries : List (Work × Task)}
    (h : s ∈ ofColumn entries) : s.assignments ≠ [] := by
  obtain ⟨k, -, made⟩ := List.mem_filterMap.1 h
  unfold ofKind? at made
  split at made
  · cases made
  · obtain rfl := Option.some.inj made
    exact List.cons_ne_nil _ _

theorem assignments_ne_nil_of_mem_checks (h : s ∈ checks works) : s.assignments ≠ [] := by
  obtain ⟨w, -, rfl⟩ := List.mem_map.1 h
  exact List.cons_ne_nil _ _

theorem assignments_ne_nil_of_mem_addedChecks (h : s ∈ addedChecks performChecks works) :
    s.assignments ≠ [] := by
  unfold addedChecks at h
  split_ifs at h
  · exact assignments_ne_nil_of_mem_checks h
  · cases h

/-- No stage of a group is empty. -/
theorem assignments_ne_nil_of_mem_ofWork
    (h : s ∈ ofWork kind orchestration performChecks works) : s.assignments ≠ [] := by
  cases kind with
  | standard =>
    rcases List.mem_append.1 h with made | added
    · obtain ⟨w, -, t, -, hosts, rfl, -⟩ := of_mem_standard made
      exact List.cons_ne_nil _ _
    · exact assignments_ne_nil_of_mem_addedChecks added
  | function f =>
    rcases List.mem_append.1 h with made | added
    · obtain ⟨position, -, made⟩ := List.mem_flatMap.1 made
      exact assignments_ne_nil_of_mem_ofColumn made
    · exact assignments_ne_nil_of_mem_addedChecks added
  | serviceCheck => exact assignments_ne_nil_of_mem_checks h

/-- Stages that are not empty themselves are told by what they assign. -/
theorem eq_nil_iff_of_filled {stages : List Stage} (filled : ∀ s ∈ stages, s.assignments ≠ []) :
    stages = [] ↔ stages.flatMap (·.assignments) = [] := by
  rw [List.flatMap_eq_nil_iff, List.eq_nil_iff_forall_not_mem]
  exact forall₂_congr fun s mem => iff_of_false not_false (filled s mem)

/-- There is a check as soon as some work has a host. -/
theorem checks_eq_nil_iff : checks works = [] ↔ ∀ w ∈ works, w.hosts = [] := by
  have hosted {w : Work} : w ∈ works.filter (fun w => !w.hosts.isEmpty) ↔
      w ∈ works ∧ w.hosts ≠ [] := by simp
  rw [checks, List.map_eq_nil_iff, firstOfServices, List.filterMap_eq_nil_iff]
  constructor
  · intro none_first w mem
    by_contra has_host
    have mem_hosted := hosted.2 ⟨mem, has_host⟩
    have absent := none_first w.service (mem_distinct.2 (List.mem_map_of_mem mem_hosted))
    simpa using List.find?_eq_none.1 absent w mem_hosted
  · intro hostless service listed
    obtain ⟨w, mem_hosted, -⟩ := List.mem_map.1 (mem_distinct.1 listed)
    obtain ⟨mem, has_host⟩ := hosted.1 mem_hosted
    exact absurd (hostless w mem) has_host

theorem addedChecks_eq_nil_iff : addedChecks performChecks works = [] ↔
    (performChecks = true → ∀ w ∈ works, w.hosts = []) := by
  unfold addedChecks
  split_ifs with on <;> simp [on, checks_eq_nil_iff]

/-- A group has no stage exactly when nothing is assigned for any task of its work that is not left
out, and there is nothing to check, or no check to make. -/
theorem ofWork_eq_nil_iff : ofWork kind orchestration performChecks works = [] ↔
    (∀ w ∈ works, ∀ t ∈ w.kept, assignmentsOf kind orchestration w t = []) ∧
      (kind = .serviceCheck ∨ performChecks = true → ∀ w ∈ works, w.hosts = []) := by
  by_cases checking : kind = .serviceCheck
  · subst checking
    have only_checks : ofWork .serviceCheck orchestration performChecks works = checks works := rfl
    rw [only_checks, checks_eq_nil_iff]
    simp [assignmentsOf]
  · have perm : ((ofWork kind orchestration performChecks works).flatMap (·.assignments)).Perm _ :=
      perm_assignments_ofWork checking
    rw [eq_nil_iff_of_filled fun s mem => assignments_ne_nil_of_mem_ofWork mem,
      ← List.length_eq_zero_iff, perm.length_eq, List.length_eq_zero_iff, List.append_eq_nil_iff,
      ← eq_nil_iff_of_filled fun s mem => assignments_ne_nil_of_mem_addedChecks mem,
      addedChecks_eq_nil_iff]
    simp only [List.flatMap_eq_nil_iff, checking, false_or]

end ClusterUpgrade.Stage
