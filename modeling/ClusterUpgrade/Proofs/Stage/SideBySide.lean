import ClusterUpgrade.Proofs.Stage
import Mathlib.Data.List.Forall2
import Mathlib.Data.List.Nodup

/-!
# Components side by side

A function group goes through its work position by position. Each of its stages has a slot: one
position, one kind of task, and the entries of the work whose task at the position is of that kind.
`Arranged` says how slots have to be arranged, and `arranged_slotsOf` that those of a group are:

1. each task that is not left out has a place in one slot, and no slot has any other place;
2. slots are ordered by position, and at one position by the first entry with a task of their kind;
3. no slot is empty, and the entries of a slot are in the order of the work.

Entries are told by where they stand, so a component may be worked on more than once.
-/

namespace ClusterUpgrade.Stage

/-- Where a stage of a function group comes from. -/
structure Slot where
  position : Nat
  kind : TaskKind
  /-- The entries whose task at the position is of the kind. -/
  entries : List Nat

/-- An entry has a task at a position that is not left out. -/
def HasTask (works : List Work) (entry position : Nat) (w : Work) (t : Task) : Prop :=
  works[entry]? = some w ∧ w.tasks[position]? = some t ∧ w.leavesOut t = false

namespace Slot

/-- The places of the tasks of a slot: their entries and positions. -/
def places (x : Slot) : List (Nat × Nat) := x.entries.map fun entry => (entry, x.position)

/-- The order of slots: by position, then by the first entry of a kind. -/
def Before (x y : Slot) : Prop :=
  x.position < y.position ∨
    x.position = y.position ∧ x.kind ≠ y.kind ∧
      ∃ first ∈ x.entries, ∀ entry ∈ y.entries, first < entry

/-- What is assigned for an entry of a slot: its task at the position, on all its hosts. -/
def Assigns (works : List Work) (x : Slot) (entry : Nat) (a : Assignment) : Prop :=
  ∃ w t, HasTask works entry x.position w t ∧ t.kind = x.kind ∧ a = w.assign w.hosts t

/-- A stage is made for a slot: it is of the same kind, and has one assignment for each entry. -/
structure Fills (works : List Work) (x : Slot) (s : Stage) : Prop where
  kind_eq : s.kind = x.kind
  assigned : List.Forall₂ (x.Assigns works) x.entries s.assignments

end Slot

/-- How the slots of a function group are arranged. -/
structure Arranged (works : List Work) (slots : List Slot) : Prop where
  once : (slots.flatMap Slot.places).Nodup
  covers : ∀ entry position, (entry, position) ∈ slots.flatMap Slot.places ↔
    ∃ w t, HasTask works entry position w t
  ordered : slots.Pairwise Slot.Before
  filled : ∀ x ∈ slots, x.entries ≠ []
  sorted : ∀ x ∈ slots, x.entries.Pairwise (· < ·)

variable {works : List Work} {entry position : Nat} {kind : TaskKind} {w : Work} {t : Task}
  {x y : Slot} {slots : List Slot}

/-! ## The slots of a group -/

/-- The task of an entry at a position, unless it is left out. -/
def taskAt? (works : List Work) (position entry : Nat) : Option (Work × Task) :=
  works[entry]?.bind (entryAt? position)

theorem entryAt?_eq_some {e : Work × Task} : entryAt? position w = some e ↔
    ∃ t, w.tasks[position]? = some t ∧ w.leavesOut t = false ∧ (w, t) = e := by
  rw [entryAt?, Option.bind_eq_some_iff]
  refine exists_congr fun t => and_congr_right fun _ => ?_
  cases w.leavesOut t <;> simp

theorem taskAt?_eq_some : taskAt? works position entry = some (w, t) ↔
    HasTask works entry position w t := by
  rw [taskAt?, Option.bind_eq_some_iff]
  constructor
  · rintro ⟨w', hw, made⟩
    obtain ⟨t', ht, kept, ⟨⟩⟩ := entryAt?_eq_some.1 made
    exact ⟨hw, ht, kept⟩
  · rintro ⟨hw, ht, kept⟩
    exact ⟨w, hw, entryAt?_eq_some.2 ⟨t, ht, kept, rfl⟩⟩

theorem HasTask.task_unique {w' : Work} {t' : Task} (h : HasTask works entry position w t)
    (h' : HasTask works entry position w' t') : t = t' := by
  have same := (taskAt?_eq_some.2 h).symm.trans (taskAt?_eq_some.2 h')
  exact congrArg Prod.snd (Option.some.inj same)

/-- A column has the tasks of the entries, in their order. -/
theorem column_eq (works : List Work) (position : Nat) :
    column works position = (List.range works.length).filterMap (taskAt? works position) := by
  have entries : (List.range works.length).filterMap (fun entry => works[entry]?) = works := by
    rw [filterMap_getElem?_range, List.take_length]
  have tasks := congrArg (List.filterMap (entryAt? position)) entries
  rw [List.filterMap_filterMap] at tasks
  exact tasks.symm

/-- The slot of a position and a kind. -/
def slotOf (works : List Work) (position : Nat) (kind : TaskKind) : Slot where
  position := position
  kind := kind
  entries := (List.range works.length).filter fun entry =>
    (taskAt? works position entry).any (·.2.kind = kind)

/-- The slots of a position. -/
def slotsAt (works : List Work) (position : Nat) : List Slot :=
  (distinct ((column works position).map (·.2.kind))).map (slotOf works position)

/-- The slots of a function group. -/
def slotsOf (works : List Work) : List Slot :=
  (List.range (depth works)).flatMap (slotsAt works)

theorem mem_entries_slotOf : entry ∈ (slotOf works position kind).entries ↔
    ∃ w t, HasTask works entry position w t ∧ t.kind = kind := by
  have listed : entry ∈ (slotOf works position kind).entries ↔ entry < works.length ∧
      ∃ e, taskAt? works position entry = some e ∧ e.2.kind = kind := by
    simp [slotOf, List.mem_filter, Option.any_eq_true]
  rw [listed]
  constructor
  · rintro ⟨-, ⟨w, t⟩, h, same⟩
    exact ⟨w, t, taskAt?_eq_some.1 h, same⟩
  · rintro ⟨w, t, h, same⟩
    exact ⟨(List.getElem?_eq_some_iff.1 h.1).1, (w, t), taskAt?_eq_some.2 h, same⟩

theorem mem_kinds : kind ∈ distinct ((column works position).map (·.2.kind)) ↔
    ∃ entry, entry ∈ (slotOf works position kind).entries := by
  rw [mem_distinct, List.mem_map, column_eq]
  constructor
  · rintro ⟨⟨w, t⟩, mem, same⟩
    obtain ⟨entry, -, h⟩ := List.mem_filterMap.1 mem
    exact ⟨entry, mem_entries_slotOf.2 ⟨w, t, taskAt?_eq_some.1 h, same⟩⟩
  · rintro ⟨entry, mem⟩
    obtain ⟨w, t, h, same⟩ := mem_entries_slotOf.1 mem
    have among : entry ∈ List.range works.length :=
      List.mem_range.2 (List.getElem?_eq_some_iff.1 h.1).1
    exact ⟨(w, t), List.mem_filterMap.2 ⟨entry, among, taskAt?_eq_some.2 h⟩, same⟩

theorem mem_slotsOf : x ∈ slotsOf works ↔ ∃ position < depth works, ∃ kind,
    (∃ entry, entry ∈ (slotOf works position kind).entries) ∧ x = slotOf works position kind := by
  simp only [slotsOf, slotsAt, List.mem_flatMap, List.mem_range, List.mem_map, mem_kinds, eq_comm]

/-! ## Stages of slots -/

/-- What is made for each item of a list is related to it. -/
theorem forall₂_filterMap {α β : Type} {R : α → β → Prop} {f : α → Option β} {l : List α}
    (h : ∀ a ∈ l, ∃ b, f a = some b ∧ R a b) : List.Forall₂ R l (l.filterMap f) := by
  induction l with
  | nil => exact .nil
  | cons a rest ih =>
    obtain ⟨⟨b, hb, related⟩, others⟩ := List.forall_mem_cons.1 h
    rw [List.filterMap_cons_some hb]
    exact .cons related (ih others)

/-- The tasks of a kind at a position are those of the entries of its slot. -/
theorem filter_column (works : List Work) (position : Nat) (kind : TaskKind) :
    (column works position).filter (·.2.kind = kind) =
      (slotOf works position kind).entries.filterMap (taskAt? works position) := by
  rw [column_eq, List.filter_filterMap, slotOf, List.filterMap_filter]
  refine List.filterMap_congr fun entry _ => ?_
  cases taskAt? works position entry with
  | none => rfl
  | some e => by_cases same : e.2.kind = kind <;> simp [same]

theorem fills_of_ofKind? {s : Stage} (made : ofKind? (column works position) kind = some s) :
    (slotOf works position kind).Fills works s := by
  have bucket := filter_column works position kind
  unfold ofKind? at made
  split at made
  · cases made
  next w t rest split =>
    obtain rfl := Option.some.inj made
    refine ⟨rfl, List.forall₂_map_right_iff.2 ?_⟩
    rw [← split, bucket]
    refine forall₂_filterMap fun entry mem => ?_
    obtain ⟨w, t, h, same⟩ := mem_entries_slotOf.1 mem
    exact ⟨(w, t), taskAt?_eq_some.2 h, w, t, h, same, rfl⟩

theorem exists_ofKind? (mem : kind ∈ distinct ((column works position).map (·.2.kind))) :
    ∃ s, ofKind? (column works position) kind = some s := by
  obtain ⟨e, listed, same⟩ := List.mem_map.1 (mem_distinct.1 mem)
  have bucket : e ∈ (column works position).filter (·.2.kind = kind) :=
    List.mem_filter.2 ⟨listed, decide_eq_true same⟩
  unfold ofKind?
  split
  next none_there => simp [none_there] at bucket
  · exact ⟨_, rfl⟩

/-- Each stage of a function group is made for its slot. -/
theorem fills_slotsOf (works : List Work) :
    List.Forall₂ (Slot.Fills works) (slotsOf works) (sideBySide works) := by
  have column_fills (position : Nat) : List.Forall₂ (Slot.Fills works) (slotsAt works position)
      (ofColumn (column works position)) := by
    refine List.forall₂_map_left_iff.2 (forall₂_filterMap fun kind mem => ?_)
    obtain ⟨s, made⟩ := exists_ofKind? mem
    exact ⟨s, made, fills_of_ofKind? made⟩
  have positions : List.Forall₂ Eq (List.range (depth works)) (List.range (depth works)) :=
    List.forall₂_refl _
  refine List.rel_flatMap positions ?_
  rintro position _ rfl
  exact column_fills position

/-! ## The arrangement -/

theorem ordered_slotsAt (works : List Work) (position : Nat) :
    (slotsAt works position).Pairwise Slot.Before := by
  have kinds : (column works position).map (·.2.kind) = (List.range works.length).filterMap
      fun entry => (taskAt? works position entry).map (·.2.kind) := by
    rw [column_eq, List.map_filterMap]
  have first := pairwise_distinct_filterMap
    (fun entry => (taskAt? works position entry).map (·.2.kind)) works.length
  rw [← kinds] at first
  have has_kind {entry : Nat} {kind : TaskKind} :
      entry ∈ (slotOf works position kind).entries ↔ entry < works.length ∧
        (taskAt? works position entry).map (·.2.kind) = some kind := by
    simp [slotOf, List.mem_filter, Option.any_eq_true, Option.map_eq_some_iff]
  refine List.pairwise_map.2 ((first.and (nodup_distinct _)).imp ?_)
  rintro a b ⟨⟨i, hi, found, before⟩, differ⟩
  refine .inr ⟨rfl, differ, i, has_kind.2 ⟨hi, found⟩, fun entry mem => ?_⟩
  obtain ⟨hentry, hb⟩ := has_kind.1 mem
  exact before entry hentry hb

theorem ordered_slotsOf (works : List Work) : (slotsOf works).Pairwise Slot.Before := by
  refine List.pairwise_flatMap.2 ⟨fun position _ => ordered_slotsAt works position, ?_⟩
  refine List.pairwise_lt_range.imp fun {i j} earlier x hx y hy => ?_
  obtain ⟨a, -, rfl⟩ := List.mem_map.1 hx
  obtain ⟨b, -, rfl⟩ := List.mem_map.1 hy
  exact .inl earlier

theorem mem_places : (entry, position) ∈ x.places ↔ entry ∈ x.entries ∧ x.position = position := by
  simp [Slot.places]

theorem lt_depth (h : HasTask works entry position w t) : position < depth works :=
  Nat.lt_of_lt_of_le (List.getElem?_eq_some_iff.1 h.2.1).1
    (length_le_depth (List.mem_of_getElem? h.1))

/-- Slots that come one before the other share no place. -/
theorem disjoint_places_of_before (hx : x ∈ slotsOf works) (hy : y ∈ slotsOf works)
    (before : x.Before y) : x.places.Disjoint y.places := by
  rintro ⟨entry, position⟩ in_x in_y
  rw [mem_places] at in_x in_y
  rcases before with earlier | ⟨-, differ, -⟩
  · omega
  · -- The one task at the place would have the kinds of both slots.
    obtain ⟨p, -, kind, -, rfl⟩ := mem_slotsOf.1 hx
    obtain ⟨q, -, kind', -, rfl⟩ := mem_slotsOf.1 hy
    obtain rfl : p = position := in_x.2
    obtain rfl : q = p := in_y.2
    obtain ⟨w, t, h, same⟩ := mem_entries_slotOf.1 in_x.1
    obtain ⟨w', t', h', same'⟩ := mem_entries_slotOf.1 in_y.1
    exact differ (same.symm.trans ((congrArg Task.kind (h.task_unique h')).trans same'))

theorem arranged_slotsOf (works : List Work) : Arranged works (slotsOf works) where
  once := by
    refine List.nodup_flatMap.2 ⟨fun x mem => ?_, ?_⟩
    · obtain ⟨position, -, kind, -, rfl⟩ := mem_slotsOf.1 mem
      exact (List.nodup_range.filter _).map fun a b same => (Prod.mk.inj same).1
    · exact (ordered_slotsOf works).imp_of_mem disjoint_places_of_before
  covers := by
    intro entry position
    simp only [List.mem_flatMap, mem_places]
    constructor
    · rintro ⟨x, mem, has_entry, rfl⟩
      obtain ⟨position, -, kind, -, rfl⟩ := mem_slotsOf.1 mem
      obtain ⟨w, t, h, -⟩ := mem_entries_slotOf.1 has_entry
      exact ⟨w, t, h⟩
    · rintro ⟨w, t, h⟩
      have has_entry : entry ∈ (slotOf works position t.kind).entries :=
        mem_entries_slotOf.2 ⟨w, t, h, rfl⟩
      exact ⟨_, mem_slotsOf.2 ⟨position, lt_depth h, t.kind, ⟨entry, has_entry⟩, rfl⟩, has_entry,
        rfl⟩
  ordered := ordered_slotsOf works
  filled := by
    intro x mem
    obtain ⟨position, -, kind, ⟨entry, has_entry⟩, rfl⟩ := mem_slotsOf.1 mem
    exact List.ne_nil_of_mem has_entry
  sorted := by
    intro x mem
    obtain ⟨position, -, kind, -, rfl⟩ := mem_slotsOf.1 mem
    exact List.pairwise_lt_range.filter _

/-- Slots at later positions come later. -/
theorem Arranged.lt_of_position_lt (arranged : Arranged works slots) {m n : Nat}
    (hx : slots[m]? = some x) (hy : slots[n]? = some y) (lt : x.position < y.position) : m < n := by
  obtain ⟨hm, rfl⟩ := List.getElem?_eq_some_iff.1 hx
  obtain ⟨hn, rfl⟩ := List.getElem?_eq_some_iff.1 hy
  by_contra not_lt
  rcases Nat.lt_or_eq_of_le (Nat.le_of_not_lt not_lt) with back | rfl
  · rcases List.pairwise_iff_getElem.1 arranged.ordered n m hn hm back with earlier | ⟨same, -⟩
    · omega
    · omega
  · omega

/-- **Side by side.** A function group first has stages that are made for slots, and then the checks
that are asked for. Each task of the work that is not left out has its place in exactly one slot,
and is assigned there with the service, component, hosts and parameters of its entry; nothing else
is assigned. The tasks of a stage stand at one position and are of its kind, in the order of the
work. Stages are ordered by position, and at one position by the first entry with a task of their
kind; none is empty, and no two have both the same position and the same kind (`Arranged`). So the
tasks of an entry are run in their order. -/
theorem components_side_by_side (f : FunctionName) (orchestration : Orchestration)
    (performChecks : Bool) (works : List Work) : ∃ (slots : List Slot) (stages : List Stage),
      ofWork (.function f) orchestration performChecks works =
        stages ++ addedChecks performChecks works ∧
      List.Forall₂ (Slot.Fills works) slots stages ∧ Arranged works slots ∧
      ∀ (m n : Nat) (x y : Slot), slots[m]? = some x → slots[n]? = some y →
        x.position < y.position → m < n :=
  ⟨slotsOf works, sideBySide works, ofWork_function, fills_slotsOf works, arranged_slotsOf works,
    fun _ _ _ _ hx hy lt => (arranged_slotsOf works).lt_of_position_lt hx hy lt⟩

end ClusterUpgrade.Stage
