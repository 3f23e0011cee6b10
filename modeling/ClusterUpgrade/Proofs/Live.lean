import ClusterUpgrade.Proofs.Store
import Mathlib.Data.List.Basic

/-!
# Live configurations

The live configuration of a service has one entry for each current type that the service owns
(`mem_liveConfig_iff`), so no type is live for two services. A revision that is added for one
service takes its type away from any other one and leaves the rest in place
(`liveConfig_addRevision`), as long as versions tell revisions apart.
-/

namespace ClusterUpgrade.Store

variable {s : Store} {stack : StackId} {service other type : String}

/-- The live configuration of a type, if a service owns it. -/
def liveAs? (s : Store) (service type : String) : Option LiveConfig :=
  (s.currentRevision? type).bind fun r =>
    if r.service = service then some ⟨type, r.tag, r.properties⟩ else none

theorem liveAs?_eq_some_iff {c : LiveConfig} : s.liveAs? service type = some c ↔
    ∃ r, s.currentRevision? type = some r ∧ r.service = service ∧
      c = ⟨type, r.tag, r.properties⟩ := by
  unfold liveAs?
  rw [Option.bind_eq_some_iff]
  refine exists_congr fun r => and_congr_right fun _ => ?_
  split
  · next h => simp [h, eq_comm]
  · next h => simp [h]

theorem liveConfig_eq : s.liveConfig service = s.current.keys.filterMap (s.liveAs? service) := rfl

theorem mem_liveConfig_iff {c : LiveConfig} :
    c ∈ s.liveConfig service ↔ s.liveAs? service c.type = some c := by
  rw [liveConfig_eq, List.mem_filterMap]
  constructor
  · rintro ⟨type, -, h⟩
    obtain ⟨r, -, -, rfl⟩ := liveAs?_eq_some_iff.1 h
    exact h
  · intro h
    refine ⟨c.type, ?_, h⟩
    obtain ⟨r, hr, -⟩ := liveAs?_eq_some_iff.1 h
    obtain ⟨v, hv, -⟩ := Option.bind_eq_some_iff.1 hr
    rw [Record.mem_keys_iff, hv]
    rfl

theorem nodup_liveConfig : ((s.liveConfig service).map (·.type)).Nodup := by
  refine List.Nodup.sublist ?_ s.current.nodup_keys
  rw [liveConfig_eq]
  induction s.current.keys with
  | nil => exact List.Sublist.refl _
  | cons type rest ih =>
    cases h : s.liveAs? service type with
    | none =>
      rw [List.filterMap_cons_none h]
      exact ih.cons type
    | some c =>
      obtain ⟨r, -, -, rfl⟩ := liveAs?_eq_some_iff.1 h
      rw [List.filterMap_cons_some h]
      exact ih.cons_cons type

/-- No type is live for two services. -/
theorem service_eq_of_live {c d : LiveConfig} (hc : c ∈ s.liveConfig service)
    (hd : d ∈ s.liveConfig other) (h : c.type = d.type) : service = other := by
  obtain ⟨r, hr, rfl, -⟩ := liveAs?_eq_some_iff.1 (mem_liveConfig_iff.1 hc)
  obtain ⟨r', hr', rfl, -⟩ := liveAs?_eq_some_iff.1 (mem_liveConfig_iff.1 hd)
  rw [h, hr'] at hr
  rw [Option.some.inj hr]

theorem not_live_of_owned {r : Revision} (hr : s.currentRevision? type = some r)
    (differs : service ≠ r.service) : ∀ c ∈ s.liveConfig service, c.type ≠ type := by
  rintro c hc rfl
  obtain ⟨r', hr', hservice, -⟩ := liveAs?_eq_some_iff.1 (mem_liveConfig_iff.1 hc)
  obtain rfl := Option.some.inj (hr.symm.trans hr')
  exact differs hservice.symm

/-! ## Other services -/

/-- Versions tell the revisions of a store apart. -/
def ToldApart (s : Store) : Prop :=
  s.revisions.Pairwise fun a b => a.version.same b.version = false

instance (s : Store) : Decidable s.ToldApart :=
  inferInstanceAs (Decidable (s.revisions.Pairwise fun a b => a.version.same b.version = false))

theorem ToldApart.of_prefix {s' : Store} (h : s'.ToldApart) (grown : s.revisions <+: s'.revisions) :
    s.ToldApart := h.sublist grown.sublist

/-- Versions are numbers and tell the revisions of a store apart. -/
structure WellVersioned (s : Store) : Prop where
  numbers : ∀ r ∈ s.revisions, r.version ≠ .notANumber
  apart : s.ToldApart

theorem WellVersioned.of_prefix {s' : Store} (h : s'.WellVersioned)
    (grown : s.revisions <+: s'.revisions) : s.WellVersioned :=
  ⟨fun r mem => h.numbers r (grown.subset mem), h.apart.of_prefix grown⟩

theorem prefix_addRevisions (entries : List (String × Properties)) (actor comment : String) :
    s.revisions <+: (entries.foldl
      (fun s e => s.addRevision stack service e.1 e.2 actor comment) s).revisions :=
  addRevisions_induction (P := fun s' => s.revisions <+: s'.revisions) actor comment entries
    (fun _ _ _ h => h.trans (List.prefix_append _ _)) (List.prefix_refl _)

section Added

variable {properties : Properties} {actor comment : String}

/-- What an added revision is, and where it stands. -/
theorem exists_addedRevision (s : Store) (stack : StackId) (service type : String)
    (properties : Properties) (actor comment : String) : ∃ new,
    (s.addRevision stack service type properties actor comment).revisions = s.revisions ++ [new] ∧
    (s.addRevision stack service type properties actor comment).current =
      Reserved.write s.current type s.nextVersion ∧
    new.version = s.nextVersion ∧ new.service = service ∧ new.properties = properties :=
  ⟨_, rfl, rfl, rfl, rfl, rfl⟩

/-- The version of an added revision is not that of an earlier one. -/
theorem find?_nextVersion
    (apart : (s.addRevision stack service type properties actor comment).ToldApart) :
    s.revisions.find? (·.version.same s.nextVersion) = none := by
  obtain ⟨new, hrevisions, -, hversion, -⟩ :=
    exists_addedRevision s stack service type properties actor comment
  rw [List.find?_eq_none]
  intro r hr
  unfold ToldApart at apart
  rw [hrevisions, List.pairwise_append] at apart
  have differs := apart.2.2 r hr new (List.mem_singleton_self new)
  rw [hversion] at differs
  simp [differs]

/-- An added revision is the current one of its type, if something can be written there. -/
theorem exists_currentRevision_addRevision
    (versioned : (s.addRevision stack service type properties actor comment).WellVersioned)
    (writable : Reserved.isWritable type = true) :
    ∃ r, (s.addRevision stack service type properties actor comment).currentRevision? type = some r ∧
      r.service = service ∧ r.properties = properties := by
  have fresh := find?_nextVersion versioned.apart
  have numbers := versioned.numbers
  obtain ⟨new, hrevisions, hcurrent, hversion, hservice, hproperties⟩ :=
    exists_addedRevision s stack service type properties actor comment
  rw [hrevisions] at numbers
  refine ⟨new, ?_, hservice, hproperties⟩
  have itself : new.version.same s.nextVersion = true := by
    rw [hversion]
    have added : new ∈ s.revisions ++ [new] := List.mem_append_right _ (List.mem_singleton_self _)
    exact Number.same_self (hversion ▸ numbers new added)
  rw [currentRevision?, hcurrent, Reserved.get?_write,
    if_pos ⟨rfl, Reserved.takes_of_isWritable writable _⟩, Option.bind_some, revision?,
    hrevisions, List.find?_append, fresh, Option.none_or, List.find?_singleton, if_pos itself]

/-- A type for which a revision is added is current under no other service. -/
theorem service_of_currentRevision?_addRevision
    (apart : (s.addRevision stack service type properties actor comment).ToldApart) {r : Revision}
    (hr : (s.addRevision stack service type properties actor comment).currentRevision? type =
      some r) : r.service = service := by
  have fresh := find?_nextVersion apart
  obtain ⟨new, hrevisions, hcurrent, -, hservice, -⟩ :=
    exists_addedRevision s stack service type properties actor comment
  obtain ⟨v, hv, hfound⟩ := Option.bind_eq_some_iff.1 hr
  rw [hcurrent, Reserved.get?_write] at hv
  split at hv
  · obtain rfl := Option.some.inj hv
    rw [revision?, hrevisions, List.find?_append, fresh, Option.none_or] at hfound
    rw [List.mem_singleton.1 (List.mem_of_find?_eq_some hfound), hservice]
  · next left =>
    have untaken : Reserved.takes s.current type = false :=
      eq_false_of_ne_true fun taken => left ⟨rfl, taken⟩
    rw [Reserved.get?_eq_none_of_not_takes untaken] at hv
    cases hv

/-- A revision that is added for another type leaves a current revision where it is. -/
theorem currentRevision?_addRevision_of_ne {t : String} {r : Revision}
    (h : s.currentRevision? t = some r) (differs : t ≠ type) :
    (s.addRevision stack service type properties actor comment).currentRevision? t = some r := by
  obtain ⟨new, hrevisions, hcurrent, -⟩ :=
    exists_addedRevision s stack service type properties actor comment
  obtain ⟨v, hv, hr⟩ := Option.bind_eq_some_iff.1 h
  rw [revision?] at hr
  rw [currentRevision?, hcurrent, Reserved.get?_write, if_neg fun both => differs both.1, hv,
    Option.bind_some, revision?, hrevisions, List.find?_append, hr, Option.some_or]

end Added

theorem currentRevision?_addRevisions_of_not_mem {entries : List (String × Properties)}
    {actor comment : String} {r : Revision} (h : s.currentRevision? type = some r)
    (absent : type ∉ entries.map Prod.fst) :
    (entries.foldl (fun s e => s.addRevision stack service e.1 e.2 actor comment) s).currentRevision?
      type = some r := by
  induction entries generalizing s with
  | nil => exact h
  | cons e rest ih =>
    rw [List.map_cons, List.mem_cons, not_or] at absent
    exact ih (currentRevision?_addRevision_of_ne h absent.1) absent.2

theorem exists_currentRevision_addRevisions {entries : List (String × Properties)}
    {properties : Properties} {actor comment : String} (distinct : (entries.map Prod.fst).Nodup)
    (mem : (type, properties) ∈ entries) (writable : Reserved.isWritable type = true)
    (versioned : (entries.foldl
      (fun s e => s.addRevision stack service e.1 e.2 actor comment) s).WellVersioned) :
    ∃ r, (entries.foldl (fun s e => s.addRevision stack service e.1 e.2 actor comment)
      s).currentRevision? type = some r ∧ r.service = service ∧ r.properties = properties := by
  induction entries generalizing s with
  | nil => cases mem
  | cons e rest ih =>
    rw [List.map_cons, List.nodup_cons] at distinct
    rw [List.foldl_cons] at versioned ⊢
    rcases List.mem_cons.1 mem with rfl | mem
    · have first := versioned.of_prefix (prefix_addRevisions rest actor comment)
      obtain ⟨r, hr, hservice, hproperties⟩ := exists_currentRevision_addRevision first writable
      exact ⟨r, currentRevision?_addRevisions_of_not_mem hr distinct.1, hservice, hproperties⟩
    · exact ih distinct.2 mem versioned

theorem currentRevision?_createRevisions_of_none {configs : PropertiesByType}
    {actor comment : String} {r : Revision} (hr : s.currentRevision? type = some r)
    (hp : configs.get? type = none) :
    (s.createRevisions stack service configs actor comment).currentRevision? type = some r := by
  refine currentRevision?_addRevisions_of_not_mem hr ?_
  intro mem
  have present := (Record.mem_keys_iff configs type).1 mem
  rw [hp] at present
  cases present

theorem exists_currentRevision_createRevisions {configs : PropertiesByType} {p : Properties}
    {actor comment : String}
    (versioned : (s.createRevisions stack service configs actor comment).WellVersioned)
    (hp : configs.get? type = some p) (writable : Reserved.isWritable type = true) :
    ∃ r, (s.createRevisions stack service configs actor comment).currentRevision? type = some r ∧
      r.service = service ∧ r.properties = p :=
  exists_currentRevision_addRevisions configs.nodup (Record.get?_eq_some_iff.1 hp) writable versioned

/-- What another service has live is taken away where the revision was added, and is left as it is
anywhere else. -/
theorem liveAs?_addRevision {properties : Properties} {actor comment : String}
    (apart : (s.addRevision stack service type properties actor comment).ToldApart)
    (differs : service ≠ other) (t : String) :
    (s.addRevision stack service type properties actor comment).liveAs? other t =
      if t = type then none else s.liveAs? other t := by
  by_cases h : t = type
  · subst h
    rw [if_pos rfl, Option.eq_none_iff_forall_ne_some]
    intro c hc
    obtain ⟨r, hr, hother, -⟩ := liveAs?_eq_some_iff.1 hc
    exact differs ((service_of_currentRevision?_addRevision apart hr).symm.trans hother)
  · rw [if_neg h]
    cases hr : s.currentRevision? t with
    | some r => rw [liveAs?, currentRevision?_addRevision_of_ne hr h, liveAs?, hr]
    | none =>
      -- A dangling version that the new revision fills belongs to the other service.
      have gone : s.liveAs? other t = none := by
        rw [liveAs?, hr]
        rfl
      rw [gone, Option.eq_none_iff_forall_ne_some]
      intro c hc
      obtain ⟨r', hr', hservice, -⟩ := liveAs?_eq_some_iff.1 hc
      obtain ⟨new, hrevisions, hcurrent, -, hnew, -⟩ :=
        exists_addedRevision s stack service type properties actor comment
      obtain ⟨v, hv, hfound⟩ := Option.bind_eq_some_iff.1 hr'
      rw [hcurrent, Reserved.get?_write, if_neg fun both => h both.1] at hv
      rw [currentRevision?, hv, Option.bind_some, revision?] at hr
      rw [revision?, hrevisions, List.find?_append, hr, Option.none_or] at hfound
      have same := List.mem_singleton.1 (List.mem_of_find?_eq_some hfound)
      rw [same, hnew] at hservice
      exact differs hservice

theorem liveConfig_addRevision {properties : Properties} {actor comment : String}
    (apart : (s.addRevision stack service type properties actor comment).ToldApart)
    (differs : service ≠ other) :
    (s.addRevision stack service type properties actor comment).liveConfig other =
      (s.liveConfig other).filter (·.type ≠ type) := by
  have step := liveAs?_addRevision apart differs
  have skip (keys : List String) :
      keys.filterMap ((s.addRevision stack service type properties actor comment).liveAs? other) =
        (keys.filter (· ≠ type)).filterMap (s.liveAs? other) := by
    rw [List.filterMap_filter]
    apply List.filterMap_congr
    intro t _
    rw [step t]
    by_cases h : t = type <;> simp [h]
  have keys : (s.addRevision stack service type properties actor comment).current.keys.filter
      (· ≠ type) = s.current.keys.filter (· ≠ type) := by
    show (Reserved.write _ _ _).keys.filter _ = _
    rw [Reserved.write]
    split
    · exact Record.filter_keys_insert _ _ _
    · rfl
  rw [liveConfig_eq, liveConfig_eq, skip, keys, List.filterMap_filter, List.filter_filterMap]
  apply List.filterMap_congr
  intro t _
  cases hc : s.liveAs? other t with
  | none => simp
  | some c =>
    obtain ⟨r, -, -, rfl⟩ := liveAs?_eq_some_iff.1 hc
    by_cases h : t = type <;> simp [h, Option.filter]

theorem liveConfig_addRevisions {actor comment : String} (entries : List (String × Properties))
    (apart : (entries.foldl
      (fun s e => s.addRevision stack service e.1 e.2 actor comment) s).ToldApart)
    (differs : service ≠ other) :
    (entries.foldl (fun s e => s.addRevision stack service e.1 e.2 actor comment) s).liveConfig
      other = (s.liveConfig other).filter fun c => c.type ∉ entries.map Prod.fst := by
  induction entries generalizing s with
  | nil => simp
  | cons e rest ih =>
    rw [List.foldl_cons] at apart ⊢
    have first := apart.of_prefix (prefix_addRevisions rest actor comment)
    rw [ih apart, liveConfig_addRevision first differs, List.filter_filter]
    apply List.filter_congr
    intro c _
    rw [Bool.eq_iff_iff, Bool.and_eq_true]
    simp only [decide_eq_true_iff, List.map_cons, List.mem_cons, not_or, ne_eq]
    exact and_comm

/-- The revisions of a merge take their types away from every other service. -/
theorem liveConfig_createRevisions {configs : PropertiesByType} {actor comment : String}
    (apart : (s.createRevisions stack service configs actor comment).ToldApart)
    (differs : service ≠ other) :
    (s.createRevisions stack service configs actor comment).liveConfig other =
      (s.liveConfig other).filter fun c => !configs.has c.type := by
  refine (liveConfig_addRevisions configs.entries apart differs).trans (List.filter_congr ?_)
  intro c _
  rw [Bool.eq_iff_iff, decide_eq_true_iff, Bool.not_eq_true']
  exact (not_congr (Record.mem_keys_iff configs c.type)).trans (Bool.not_eq_true _).to_iff

end ClusterUpgrade.Store
