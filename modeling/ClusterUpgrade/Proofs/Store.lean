import ClusterUpgrade.Proofs.Number
import ClusterUpgrade.Proofs.Reserved
import ClusterUpgrade.Store.Read
import ClusterUpgrade.Store.Write

/-!
# Revisions of a store

What the two writes of configurations do: `Store.createRevisions` adds revisions and makes them
current, `Store.applyLatest` only chooses among the revisions that are there.
-/

namespace ClusterUpgrade.Store

variable {s s' : Store} {stack : StackId} {service type : String}

/-! ## Choosing revisions -/

/-- The revisions of a service on a stack, oldest first. -/
def revisionsOn (s : Store) (stack : StackId) (service : String) : List Revision :=
  s.revisions.filter fun r => r.service = service ∧ r.stack = stack.text

theorem mem_revisionsOn {r : Revision} : r ∈ s.revisionsOn stack service ↔
    r ∈ s.revisions ∧ r.service = service ∧ r.stack = stack.text := by
  simp [revisionsOn]

theorem latestVersions_eq : s.latestVersions stack service =
    (s.revisionsOn stack service).foldl (fun latest r => latest.insert r.type r.version)
      Record.empty := by
  rw [revisionsOn, List.foldl_filter]
  simp only [latestVersions, decide_eq_true_eq]

theorem has_latestVersions : (s.latestVersions stack service).has type =
    decide (type ∈ (s.revisionsOn stack service).map (·.type)) := by
  rw [latestVersions_eq, Record.has_foldl_insert Revision.type Revision.version]
  exact Bool.or_false _

theorem latestVersions_isEmpty_iff : (s.latestVersions stack service).entries.isEmpty = true ↔
    ∀ r ∈ s.revisions, ¬ (r.service = service ∧ r.stack = stack.text) := by
  rw [List.isEmpty_iff, Record.entries_eq_nil_iff]
  constructor
  · intro h r hr hmem
    have hnone := Record.has_eq_false_iff.2 (h r.type)
    rw [has_latestVersions, decide_eq_false_iff_not, List.mem_map] at hnone
    exact hnone ⟨r, mem_revisionsOn.2 ⟨hr, hmem⟩, rfl⟩
  · intro h type
    rw [← Record.has_eq_false_iff, has_latestVersions, decide_eq_false_iff_not, List.mem_map]
    rintro ⟨r, hr, -⟩
    obtain ⟨hr, hmem⟩ := mem_revisionsOn.1 hr
    exact h r hr hmem

theorem exists_of_get?_latestVersions {v : Number}
    (h : (s.latestVersions stack service).get? type = some v) :
    ∃ r ∈ s.revisionsOn stack service, r.type = type ∧ r.version = v := by
  rw [latestVersions_eq] at h
  rcases Record.exists_of_get?_foldl_insert Revision.type Revision.version h with found | none
  · exact found
  · cases none

/-- A service with one revision of each type on a stack has that revision as its latest. -/
theorem get?_latestVersions_of_mem {r : Revision}
    (distinct : ((s.revisionsOn stack service).map (·.type)).Nodup)
    (mem : r ∈ s.revisionsOn stack service) :
    (s.latestVersions stack service).get? r.type = some r.version := by
  rw [latestVersions_eq]
  exact Record.get?_foldl_insert_of_mem Revision.type Revision.version distinct mem _

/-- The current versions after the latest revisions of a service on a stack are applied. -/
def appliedVersions (s : Store) (stack : StackId) (service : String) : Record Number :=
  Reserved.overlay
    (s.current.filterKeys fun type =>
      !(s.ownedBy service type && !(s.latestVersions stack service).has type))
    (s.latestVersions stack service)

/-- A type takes the latest version, or is left as it is unless the service has owned it. -/
theorem get?_appliedVersions (takes : Reserved.takes s.current type = true) :
    (s.appliedVersions stack service).get? type =
      ((s.latestVersions stack service).get? type).or
        (if s.ownedBy service type then none else s.current.get? type) := by
  rw [appliedVersions, Reserved.get?_overlay, Record.get?_filterKeys]
  by_cases dropped : (s.ownedBy service type && !(s.latestVersions stack service).has type) = true
  · obtain ⟨owned, absent⟩ := Bool.and_eq_true_iff.1 dropped
    have none : (s.latestVersions stack service).get? type = none := by
      simpa [Record.has] using absent
    simp [owned, none, Record.has]
  · have kept :
        (!(s.ownedBy service type && !(s.latestVersions stack service).has type)) = true := by
      simp [eq_false_of_ne_true dropped]
    rw [Reserved.takes_filterKeys kept, if_pos takes, if_pos kept]
    cases h : (s.latestVersions stack service).get? type with
    | none => cases owned : s.ownedBy service type <;> simp_all [Record.has]
    | some v => rfl

/-- The reserved name is current afterwards only if it was so before. -/
theorem get?_appliedVersions_of_not_takes (takes : Reserved.takes s.current type = false) :
    (s.appliedVersions stack service).get? type = none := by
  have none : s.current.get? type = none := Reserved.get?_eq_none_of_not_takes takes
  have reserved : Reserved.isWritable type = false := by simp_all [Reserved.takes]
  rw [appliedVersions, Reserved.get?_overlay, if_neg]
  simp [Reserved.takes, reserved, Record.has, none]

/-- What is current afterwards is a latest version or was current before. -/
theorem of_get?_appliedVersions {v : Number}
    (h : (s.appliedVersions stack service).get? type = some v) :
    (s.latestVersions stack service).get? type = some v ∨
      s.ownedBy service type = false ∧ s.current.get? type = some v := by
  by_cases takes : Reserved.takes s.current type = true
  · rw [get?_appliedVersions takes, Option.or_eq_some_iff] at h
    rcases h with latest | ⟨-, kept⟩
    · exact Or.inl latest
    · split at kept
      · cases kept
      · next free => exact Or.inr ⟨eq_false_of_ne_true free, kept⟩
  · rw [get?_appliedVersions_of_not_takes (eq_false_of_ne_true takes)] at h
    cases h

/-- Applying the latest revisions changes nothing but what is current. -/
theorem applyLatest_eq_ok_iff : s.applyLatest stack service = .ok s' ↔
    (∃ r ∈ s.revisions, r.service = service ∧ r.stack = stack.text) ∧
      s' = { s with current := s.appliedVersions stack service } := by
  unfold applyLatest
  by_cases h : (s.latestVersions stack service).entries.isEmpty = true
  · simp only [h, if_true, reduceCtorEq, false_iff, not_and]
    rintro ⟨r, hr, hmem⟩
    exact absurd hmem (latestVersions_isEmpty_iff.1 h r hr)
  · have some_revision : ∃ r ∈ s.revisions, r.service = service ∧ r.stack = stack.text := by
      rw [latestVersions_isEmpty_iff] at h
      simpa using h
    simp only [h, Bool.false_eq_true, if_false, Except.ok.injEq, some_revision, true_and]
    exact eq_comm

theorem applyLatest_eq_error_iff {e : StoreError} : s.applyLatest stack service = .error e ↔
    (∀ r ∈ s.revisions, ¬ (r.service = service ∧ r.stack = stack.text)) ∧
      e = .noRevisions service stack.text := by
  rw [← latestVersions_isEmpty_iff]
  unfold applyLatest
  by_cases h : (s.latestVersions stack service).entries.isEmpty = true
  · simp only [h, if_true, Except.error.injEq, true_and]
    exact eq_comm
  · simp [h]

/-! ## Adding revisions -/

section Create

variable (actor comment : String)

/-- A property of the store that every added revision keeps is kept by all of them. -/
theorem addRevisions_induction {P : Store → Prop}
    (entries : List (String × Properties)) (step : ∀ e ∈ entries, ∀ s, P s →
      P (s.addRevision stack service e.1 e.2 actor comment)) (h : P s) :
    P (entries.foldl (fun s e => s.addRevision stack service e.1 e.2 actor comment) s) := by
  induction entries generalizing s with
  | nil => exact h
  | cons e rest ih =>
    obtain ⟨first, others⟩ := List.forall_mem_cons.1 step
    exact ih others (first s h)

theorem createRevisions_induction {P : Store → Prop} (configs : PropertiesByType)
    (step : ∀ e ∈ configs.entries, ∀ s, P s →
      P (s.addRevision stack service e.1 e.2 actor comment)) (h : P s) :
    P (s.createRevisions stack service configs actor comment) :=
  addRevisions_induction actor comment configs.entries step h

variable (configs : PropertiesByType)

theorem defaults_createRevisions :
    (s.createRevisions stack service configs actor comment).defaults = s.defaults :=
  createRevisions_induction (P := fun s' => s'.defaults = s.defaults) actor comment configs
    (fun _ _ _ h => h) rfl

end Create

/-! ## Where current versions come from -/

/-- Where all versions are numbers, so is the next one. -/
theorem nextVersion_ne_notANumber (numbers : ∀ r ∈ s.revisions, r.version ≠ .notANumber) :
    s.nextVersion ≠ .notANumber := by
  have highest (revisions : List Revision) (numbers : ∀ r ∈ revisions, r.version ≠ .notANumber)
      {n : Number} (h : n ≠ .notANumber) :
      revisions.foldl (fun m r => m.larger r.version) n ≠ .notANumber := by
    induction revisions generalizing n with
    | nil => exact h
    | cons r rest ih =>
      obtain ⟨first, others⟩ := List.forall_mem_cons.1 numbers
      exact ih others (Number.larger_ne_notANumber h first)
  exact Number.successor_ne_notANumber (highest s.revisions numbers nofun)

/-- What is current after a revision is added is its version or was current before. -/
theorem of_get?_addRevision {type' : String} {properties : Properties} {actor comment : String}
    {v : Number}
    (h : (s.addRevision stack service type properties actor comment).current.get? type' = some v) :
    type' = type ∧ v = s.nextVersion ∨ s.current.get? type' = some v := by
  simp only [Store.addRevision, Reserved.get?_write] at h
  split at h
  · next same => exact Or.inl ⟨same.1, (Option.some.inj h).symm⟩
  · exact Or.inr h

/-- Every version is a number, and every current version is that of a revision. -/
structure Sourced (s : Store) : Prop where
  numbers : ∀ r ∈ s.revisions, r.version ≠ .notANumber
  current : ∀ type v, s.current.get? type = some v → ∃ r ∈ s.revisions, r.version = v

namespace Sourced

/-- A type that is current has a current revision. -/
theorem exists_currentRevision (h : s.Sourced) {v : Number} (hv : s.current.get? type = some v) :
    ∃ r ∈ s.revisions, s.currentRevision? type = some r := by
  obtain ⟨r, mem, rfl⟩ := h.current type v hv
  have found : (s.revision? r.version).isSome := by
    rw [revision?, List.find?_isSome]
    exact ⟨r, mem, Number.same_self (h.numbers r mem)⟩
  obtain ⟨r', hr'⟩ := Option.isSome_iff_exists.1 found
  exact ⟨r', List.mem_of_find?_eq_some hr', by rw [currentRevision?, hv]; exact hr'⟩

theorem addRevision (h : s.Sourced) (properties : Properties) (actor comment : String) :
    (s.addRevision stack service type properties actor comment).Sourced where
  numbers := by
    intro r mem
    rcases List.mem_append.1 mem with mem | mem
    · exact h.numbers r mem
    · rw [List.mem_singleton.1 mem]
      exact nextVersion_ne_notANumber h.numbers
  current := by
    intro type' v hv
    rcases of_get?_addRevision hv with ⟨-, rfl⟩ | old
    · exact ⟨_, List.mem_append_right _ (List.mem_singleton_self _), rfl⟩
    · obtain ⟨r, mem, hr⟩ := h.current type' v old
      exact ⟨r, List.mem_append_left _ mem, hr⟩

theorem applyLatest (h : s.Sourced) (ha : s.applyLatest stack service = .ok s') : s'.Sourced := by
  obtain ⟨-, rfl⟩ := applyLatest_eq_ok_iff.1 ha
  refine ⟨h.numbers, ?_⟩
  intro type v hv
  rcases of_get?_appliedVersions hv with hlatest | ⟨-, hkept⟩
  · obtain ⟨r, mem, -, hr⟩ := exists_of_get?_latestVersions hlatest
    exact ⟨r, (mem_revisionsOn.1 mem).1, hr⟩
  · exact h.current type v hkept

end Sourced

end ClusterUpgrade.Store
