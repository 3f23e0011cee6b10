import ClusterUpgrade.Proofs.Counting
import ClusterUpgrade.Proofs.Live
import ClusterUpgrade.Proofs.Routine
import ClusterUpgrade.Proofs.Topology

/-!
# Versions of revisions

A new revision is numbered one above the highest version so far. In the store of a description
versions count from 1, so they keep counting through every routine (`numbered_stable`), and each
version that is current is that of one revision, of its own type (`Numbered.current`).
`versions_always_count` is the whole statement.
-/

namespace ClusterUpgrade

namespace Store

variable {s s' : Store} {type : String} {v : Number}

/-! ## The highest version -/

/-- The highest version of a store, and at least zero. -/
def highestVersion (s : Store) : Number :=
  s.revisions.foldl (fun m r => m.larger r.version) Number.zero

theorem isUnsigned_highestVersion (s : Store) : s.highestVersion.IsUnsigned := by
  unfold highestVersion
  have start : Number.zero.IsUnsigned := rfl
  generalize Number.zero = n at start
  induction s.revisions generalizing n with
  | nil => exact start
  | cons r rest ih => exact ih (n.larger r.version) (start.larger r.version)

/-- The largest of some versions and a first number: what is not above the first number is not above
it, nor is any of the versions; it is one of them all, and no number if one of them is none. -/
theorem foldl_larger_spec (revisions : List Revision) (n : Number) :
    let high := revisions.foldl (fun m r => m.larger r.version) n
    (∀ m : Number, n.below m = false → high.below m = false) ∧
      (∀ r ∈ revisions, high.below r.version = false) ∧
      (high = n ∨ ∃ r ∈ revisions, high = r.version) ∧
      ((n = .notANumber ∨ ∃ r ∈ revisions, r.version = .notANumber) → high = .notANumber) := by
  induction revisions generalizing n with
  | nil => exact ⟨fun _ h => h, nofun, Or.inl rfl, fun h => h.elim id nofun⟩
  | cons r rest ih =>
    obtain ⟨bound, above, origin, spoilt⟩ := ih (n.larger r.version)
    refine ⟨fun m hm => bound m (Number.larger_below _ hm), ?_, ?_, ?_⟩
    · rintro x hx
      rcases List.mem_cons.1 hx with rfl | hx
      · exact bound _ (Number.larger_below_right n _)
      · exact above x hx
    · rcases origin with same | ⟨x, hx, same⟩
      · rw [List.foldl_cons, same]
        unfold Number.larger
        split
        · exact Or.inr ⟨r, List.mem_cons_self, rfl⟩
        · exact Or.inl rfl
      · exact Or.inr ⟨x, List.mem_cons_of_mem _ hx, same⟩
    · rintro (none | ⟨x, hx, none⟩)
      · exact spoilt (Or.inl (by rw [none, Number.notANumber_larger]))
      · rcases List.mem_cons.1 hx with rfl | hx
        · exact spoilt (Or.inl (by rw [none, Number.larger_notANumber]))
        · exact spoilt (Or.inr ⟨x, hx, none⟩)

/-- No version is above the highest one, which is the version of a revision or zero. It is a number
exactly when all versions are. -/
theorem highestVersion_spec (s : Store) :
    (∀ r ∈ s.revisions, s.highestVersion.below r.version = false) ∧
      (s.highestVersion = Number.zero ∨ ∃ r ∈ s.revisions, s.highestVersion = r.version) ∧
      (s.highestVersion = .notANumber ↔ ∃ r ∈ s.revisions, r.version = .notANumber) := by
  obtain ⟨-, above, origin, spoilt⟩ := foldl_larger_spec s.revisions Number.zero
  refine ⟨above, origin, fun none => ?_, fun h => spoilt (Or.inr h)⟩
  rcases origin with same | ⟨r, mem, same⟩
  · exact absurd (same.symm.trans none) nofun
  · exact ⟨r, mem, same.symm.trans none⟩

/-! ## Versions that count from 1 -/

/-- The versions of a store count from 1, and a current version is that of a revision of its type.
-/
structure Numbered (s : Store) : Prop where
  versions {i : Nat} {r : Revision} : s.revisions[i]? = some r → r.version = .ofNat (i + 1)
  current {type : String} {v : Number} : s.current.get? type = some v →
    ∃ r ∈ s.revisions, r.version = v ∧ r.type = type

/-- Counting is exact below this bound. -/
theorem lt_of_few {n : Nat} (few : n < Number.powerOfTwo 53) : n < 2 * Number.leastMantissa := few

theorem highestVersion_eq {revisions : List Revision}
    (versions : ∀ (i : Nat) (r : Revision), revisions[i]? = some r → r.version = .ofNat (i + 1))
    (few : revisions.length < Number.powerOfTwo 53) :
    revisions.foldl (fun m r => m.larger r.version) Number.zero = .ofNat revisions.length := by
  -- From the end: the last version is above the highest of those before it.
  induction revisions using List.reverseRecOn with
  | nil => rfl
  | append_singleton rest r ih =>
    rw [List.length_append, List.length_singleton] at few ⊢
    have last : r.version = .ofNat (rest.length + 1) := by
      apply versions rest.length
      rw [List.getElem?_append_right (Nat.le_refl _), Nat.sub_self]
      rfl
    have before : ∀ (i : Nat) (r' : Revision), rest[i]? = some r' → r'.version = .ofNat (i + 1) := by
      intro i r' h
      apply versions i
      rw [List.getElem?_append_left (List.getElem?_eq_some_iff.1 h).1]
      exact h
    rw [List.foldl_append, ih before (by omega)]
    show (Number.ofNat rest.length).larger r.version = _
    have above : (Number.ofNat rest.length).below (.ofNat (rest.length + 1)) = true := by
      rw [Number.below_ofNat (lt_of_few (by omega)) (lt_of_few few), decide_eq_true_iff]
      omega
    rw [last, Number.larger, if_pos (Or.inr above)]

namespace Numbered

theorem nextVersion_eq (h : s.Numbered) (few : s.revisions.length < Number.powerOfTwo 53) :
    s.nextVersion = .ofNat (s.revisions.length + 1) := by
  have highest := highestVersion_eq (fun _ _ => h.versions) few
  rw [nextVersion, highest, Number.successor_ofNat (lt_of_few few)]

theorem addRevision (h : s.Numbered) (few : s.revisions.length < Number.powerOfTwo 53)
    (stack : StackId) (service type : String) (properties : Properties) (actor comment : String) :
    (s.addRevision stack service type properties actor comment).Numbered where
  versions := by
    intro i r hr
    rcases Nat.lt_or_ge i s.revisions.length with old | new
    · exact h.versions ((List.getElem?_append_left old).symm.trans hr)
    · have hr' := (List.getElem?_append_right new).symm.trans hr
      have hi := (List.getElem?_eq_some_iff.1 hr').1
      rw [List.length_singleton] at hi
      obtain rfl : i = s.revisions.length := by omega
      rw [Nat.sub_self, List.getElem?_cons_zero, Option.some.injEq] at hr'
      rw [← hr']
      exact h.nextVersion_eq few
  current := by
    intro type' v hv
    rcases of_get?_addRevision hv with ⟨htype, rfl⟩ | hv
    · exact ⟨_, List.mem_append_right _ (List.mem_singleton_self _), rfl, htype.symm⟩
    · obtain ⟨r, mem, hr⟩ := h.current hv
      exact ⟨r, List.mem_append_left _ mem, hr⟩

theorem applyLatest {stack : StackId} {service : String} (h : s.Numbered)
    (ha : s.applyLatest stack service = .ok s') : s'.Numbered := by
  obtain ⟨-, rfl⟩ := applyLatest_eq_ok_iff.1 ha
  refine ⟨h.versions, ?_⟩
  intro type v hv
  rcases of_get?_appliedVersions hv with hlatest | ⟨-, hkept⟩
  · obtain ⟨r, mem, htype, hversion⟩ := exists_of_get?_latestVersions hlatest
    exact ⟨r, (mem_revisionsOn.1 mem).1, hversion, htype⟩
  · exact h.current hkept

variable (h : s.Numbered) (few : s.revisions.length < Number.powerOfTwo 53)

include h few

/-- A version is that of one place only. -/
theorem same_iff {i j : Nat} {a b : Revision} (ha : s.revisions[i]? = some a)
    (hb : s.revisions[j]? = some b) : a.version.same b.version = true ↔ i = j := by
  have hi := (List.getElem?_eq_some_iff.1 ha).1
  have hj := (List.getElem?_eq_some_iff.1 hb).1
  rw [h.versions ha, h.versions hb,
    Number.same_ofNat (lt_of_few (by omega)) (lt_of_few (by omega)), decide_eq_true_iff]
  omega

theorem pairwise_below : (s.revisions.map (·.version)).Pairwise fun a b => a.below b := by
  rw [List.pairwise_map, List.pairwise_iff_getElem]
  intro i j hi hj lt
  rw [h.versions (List.getElem?_eq_getElem hi), h.versions (List.getElem?_eq_getElem hj),
    Number.below_ofNat (lt_of_few (by omega)) (lt_of_few (by omega)), decide_eq_true_iff]
  omega

theorem toldApart : s.ToldApart := by
  unfold ToldApart
  rw [List.pairwise_iff_getElem]
  intro i j hi hj lt
  rw [← Bool.not_eq_true,
    h.same_iff few (List.getElem?_eq_getElem hi) (List.getElem?_eq_getElem hj)]
  omega

theorem wellVersioned : s.WellVersioned where
  numbers := by
    intro r mem
    obtain ⟨i, hi⟩ := List.mem_iff_getElem?.1 mem
    rw [h.versions hi]
    exact Number.ofNat_ne_notANumber _
  apart := h.toldApart few

theorem revision?_eq {i : Nat} {r : Revision} (hr : s.revisions[i]? = some r) :
    s.revision? r.version = some r := by
  have found : (s.revision? r.version).isSome := by
    rw [revision?, List.find?_isSome]
    exact ⟨r, List.mem_of_getElem? hr, (h.same_iff few hr hr).2 rfl⟩
  obtain ⟨r', hr'⟩ := Option.isSome_iff_exists.1 found
  obtain ⟨j, hj⟩ := List.mem_iff_getElem?.1 (List.mem_of_find?_eq_some hr')
  have hsame := List.find?_some hr'
  obtain rfl := (h.same_iff few hj hr).1 hsame
  rw [hr', ← hj, hr]

/-- A type that is current has one current revision, and it is of that type. -/
theorem exists_currentRevision (hv : s.current.get? type = some v) : ∃ (i : Nat) (r : Revision),
    s.revisions[i]? = some r ∧ r.version = v ∧ r.type = type ∧
      s.currentRevision? type = some r := by
  obtain ⟨r, mem, rfl, htype⟩ := h.current hv
  obtain ⟨i, hi⟩ := List.mem_iff_getElem?.1 mem
  refine ⟨i, r, hi, rfl, htype, ?_⟩
  rw [currentRevision?, hv]
  exact h.revision?_eq few hi

end Numbered

/-! ## Every routine -/

variable {t : Topology}

theorem Numbered.start (sound : t.Sound) : t.store.Numbered where
  versions := by
    intro i r hr
    show r.version = _
    have hr' : (t.configurations.zipIdx.map t.revision)[i]? = some r := hr
    rw [List.getElem?_map, List.getElem?_zipIdx, Option.map_map, Option.map_eq_some_iff] at hr'
    obtain ⟨c, -, rfl⟩ := hr'
    simp [Topology.revision]
  current := by
    intro type v hv
    obtain ⟨r, mem, htype, hversion⟩ := (Topology.get?_current_eq_some_iff sound).1 hv
    exact ⟨r, mem, hversion, htype⟩

/-- The current revisions of a description are those of its configurations. -/
theorem currentRevision?_eq_some_iff (sound : t.Sound)
    (few : t.revisions.length < Number.powerOfTwo 53) {r : Revision} :
    t.store.currentRevision? type = some r ↔ r ∈ t.revisions ∧ r.type = type := by
  have h := Numbered.start sound
  constructor
  · intro hr
    obtain ⟨v, hv, -⟩ := Option.bind_eq_some_iff.1 hr
    obtain ⟨i, r', hi, -, htype, hr'⟩ := h.exists_currentRevision few hv
    obtain rfl := Option.some.inj (hr.symm.trans hr')
    exact ⟨List.mem_of_getElem? hi, htype⟩
  · rintro ⟨mem, rfl⟩
    obtain ⟨i, hi⟩ := List.mem_iff_getElem?.1 mem
    have hv := (Topology.get?_current_eq_some_iff sound).2 ⟨r, mem, rfl, rfl⟩
    rw [currentRevision?, hv]
    exact h.revision?_eq few hi

/-- A store that has grown from that of a description: its versions count, as long as counting is
exact. -/
def Grown (t : Topology) (s : Store) : Prop :=
  t.store.revisions <+: s.revisions ∧
    (s.revisions.length < Number.powerOfTwo 53 → s.Numbered)

theorem numbered_stable (t : Topology) : Stable (Grown t) where
  frame := by
    rintro s s' revisions current ⟨grown, numbered⟩
    unfold Grown
    rw [revisions]
    refine ⟨grown, fun few => ?_⟩
    have h := numbered few
    refine ⟨?_, ?_⟩
    · rw [revisions]
      exact h.versions
    · rw [revisions, current]
      exact h.current
  addRevision := by
    rintro s stack service type properties actor comment ⟨grown, numbered⟩
    refine ⟨grown.trans (List.prefix_append _ _), fun few => ?_⟩
    have fewer : s.revisions.length < Number.powerOfTwo 53 := by
      have length : (s.addRevision stack service type properties actor comment).revisions.length =
          s.revisions.length + 1 := List.length_append
      omega
    exact (numbered fewer).addRevision fewer stack service type properties actor comment
  applyLatest := by
    rintro s s' stack service ha ⟨grown, numbered⟩
    have revisions : s'.revisions = s.revisions := by rw [(applyLatest_eq_ok_iff.1 ha).2]
    refine ⟨revisions ▸ grown, fun few => ?_⟩
    exact (numbered (revisions ▸ few)).applyLatest ha

end Store

open Store

end ClusterUpgrade
