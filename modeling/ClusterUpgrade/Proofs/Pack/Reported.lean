import ClusterUpgrade.Proofs.Located
import ClusterUpgrade.Proofs.Pack.Declared

/-!
# What is reported of a grouping

1. `issues_checkGrouping_of_headed`, `issues_checkGrouping_of_not_headed`: the check of an entry
   looks at its flags and its function only when name, kind and scope are sound.
2. `about_of_mem_headIssues`, `about_of_mem_flagIssues`: what it finds is about the fields that it
   looks at.
3. `mem_check_of_mem`, `mem_checkGrouping_of_mem`: the check of a document finds about an entry of
   the upgrade what the check of the entry finds.
4. `spoilt_reported_iff`: so a spoilt flag or function is reported exactly when name, kind and scope
   are sound, whatever else is wrong with the document.
-/

namespace ClusterUpgrade.Pack

open Checked Document
open Issue (In About ErrorIn ErrorAbout)

/-! ## Where the checks of groupings report -/

section Grouping

variable {d : Document} {place : Location} {field : String}

theorem checkTexts_about : (checkTexts d field place).Only (·.ErrorAbout place field) := by
  unfold checkTexts
  split
  · exact only_pure _
  · exact only_pure _
  · split
    · exact only_pure _
    · exact only_reported ⟨rfl, .inl (In.self _)⟩ _

theorem checkCondition_inside : (checkCondition d place).Only (·.ErrorIn place) := by
  unfold checkCondition
  split
  · split
    · exact only_reported ⟨rfl, In.self _⟩ _
    · split
      · exact requireWord_about.inside.bind fun _ => only_pure _
      · exact requireText_about.inside.bind fun _ => requireText_about.inside.bind fun _ =>
          requireWord_about.inside.bind fun _ => optionalText_about.inside.bind fun _ =>
            only_pure _
      · exact only_reported ⟨rfl, In.of_field (In.self _)⟩ _
  · exact only_reported ⟨rfl, In.self _⟩ _

theorem checkGroupCondition_inside {value : Option Document} :
    (checkGroupCondition value place).Only (·.ErrorIn place) := by
  unfold checkGroupCondition
  split
  · exact only_pure _
  · exact checkCondition_inside

theorem checkService_inside (entry : Document × Nat) :
    (checkService place entry).Only (·.ErrorIn (place.index entry.2)) := by
  unfold checkService
  dsimp only
  split
  · exact requireText_about.inside.bind fun _ =>
      checkTexts_about.inside.bind fun _ => only_pure _
  · exact only_reported ⟨rfl, In.self _⟩ _

theorem checkServices_inside {value : Option Document} :
    (checkServices value place).Only (·.ErrorIn place) :=
  itemsOf_inside.bind fun _ => (only_all fun entry _ =>
    (checkService_inside entry).imp fun _ => ErrorIn.of_index).bind fun _ => only_pure _

theorem checkKindWord_about : (checkKindWord d place).Only (·.ErrorAbout place "kind") := by
  unfold checkKindWord
  split
  · exact only_pure _
  · split
    · exact only_pure _
    · exact only_reported ⟨rfl, .inl (In.self _)⟩ _

theorem checkKind_about {word : String} :
    (checkKind d place word).Only (·.ErrorAbout place "function") := by
  unfold checkKind
  split
  · exact requireWord_about.bind fun _ => only_pure _
  · exact only_pure _

end Grouping

/-! ## The issues of an entry -/

section Entry

variable (d : Document) (place : Location)

/-- The issues of an entry that are looked for in any case. -/
def headIssues : List Issue :=
  (requireText d "name" place).issues ++ ((checkKindWord d place).issues ++
    ((wordOr Scope d "scope" place .complete).issues ++ ((optionalText d "title" place).issues ++
      ((checkGroupCondition (d.field? "condition") (place.field "condition")).issues ++
        (checkServices (d.field? "services") (place.field "services")).issues))))

/-- The flags of an entry, each with the value that it has when it is missing. -/
def flags : List (String × Bool) :=
  [("skippable", false), ("allowRetry", true), ("supportsAutoSkipOnFailure", true),
    ("performServiceCheck", true)]

/-- The issues of an entry that are looked for when its name, kind and scope are sound. -/
def flagIssues (word : String) : List Issue :=
  (flags.flatMap fun flag => (optionalBoolean d flag.1 place flag.2).issues) ++
    (checkKind d place word).issues

/-- The name, the kind and the scope of an entry are sound. -/
structure Headed : Prop where
  name : ∃ s, d.HasText "name" s
  kind : ∃ w, w ∈ kindWords ∧ Reads (d.field? "kind") (fun v w => v = .text w) "default" w
  scope : ∃ a : Scope, Reads (d.field? "scope") (fun v a => v = .text (Named.name a)) .complete a

variable {d place}

theorem hasText_of_value {field s : String}
    (h : (requireText d field place).value = some s) : d.HasText field s := by
  unfold requireText at h
  split at h
  · cases h
  · next found =>
    split at h
    · cases h
    · next filled =>
      obtain rfl := Option.some.inj h
      exact ⟨found, filled⟩
  · cases h

theorem kind_of_value {word : String} (h : (checkKindWord d place).value = some word) :
    word ∈ kindWords ∧ Reads (d.field? "kind") (fun v w => v = .text w) "default" word := by
  unfold checkKindWord at h
  split at h
  · next missing =>
    obtain rfl := Option.some.inj h
    exact ⟨List.mem_cons_self, missing ▸ rfl⟩
  · next found =>
    split at h
    · next chosen =>
      obtain rfl := Option.some.inj h
      obtain ⟨rfl, known⟩ := choice?_eq_some_iff.1 chosen
      exact ⟨known, found ▸ rfl⟩
    · cases h

theorem word_of_value {α : Type} [Named α] [LawfulNamed α] {field : String} {a : α}
    (h : (requireWord α d field place).value = some a) : d.HasWord field a := by
  unfold requireWord at h
  split at h
  · cases h
  · next found =>
    split at h
    · next known =>
      obtain rfl := Option.some.inj h
      rw [HasWord, found, text?_bind_ofName?_eq_some_iff.1 known]
    · cases h

theorem scope_of_value {scope : Scope}
    (h : (wordOr Scope d "scope" place .complete).value = some scope) :
    Reads (d.field? "scope") (fun v a => v = .text (Named.name a)) .complete scope := by
  unfold wordOr at h
  split at h
  · rw [word_of_value h]
    rfl
  · next missing =>
    obtain rfl := Option.some.inj h
    rw [Option.not_isSome_iff_eq_none.1 missing]
    rfl

/-- The checks of the name, the kind and the scope of an entry whose head is sound. -/
theorem Headed.checks (h : Headed d) (place : Location) : ∃ name word scope,
    d.HasText "name" name ∧ Reads (d.field? "kind") (fun v w => v = .text w) "default" word ∧
      requireText d "name" place = ⟨some name, []⟩ ∧ checkKindWord d place = ⟨some word, []⟩ ∧
      wordOr Scope d "scope" place .complete = ⟨some scope, []⟩ := by
  obtain ⟨⟨name, hname⟩, ⟨word, known, hword⟩, ⟨scope, hscope⟩⟩ := h
  exact ⟨name, word, scope, hname, hword, requireText_gives.complete _ ⟨name, rfl, hname⟩,
    checkKindWord_gives.complete _ ⟨word, rfl, known, hword⟩,
    wordOr_gives.complete _ ⟨scope, rfl, hscope⟩⟩

theorem issues_checkGrouping_of_headed (h : Headed d) (place : Location) : ∃ word,
    Reads (d.field? "kind") (fun v w => v = .text w) "default" word ∧
      (checkGrouping d place).issues = headIssues d place ++ flagIssues d place word := by
  obtain ⟨name, word, scope, hname, hword, given, given', given''⟩ := h.checks place
  refine ⟨word, hword, ?_⟩
  cases d with
  | record fields =>
    simp only [checkGrouping, headIssues, flagIssues, flags, List.flatMap_cons, List.flatMap_nil,
      issues_bind, given, given', given'', issues_pure, List.append_nil, List.append_assoc]
  | null | boolean _ | number _ | text _ | list _ => cases hname.1

theorem issues_checkGrouping_of_not_headed {fields : List (String × Document)}
    (h : ¬ Headed (.record fields)) :
    (checkGrouping (.record fields) place).issues = headIssues (.record fields) place := by
  simp only [checkGrouping, headIssues, issues_bind, List.append_right_inj]
  -- Only with all three of them is anything looked for.
  split
  · next hname hword hscope =>
    have kind := kind_of_value hword
    exact absurd ⟨⟨_, hasText_of_value hname⟩, ⟨_, kind⟩, ⟨_, scope_of_value hscope⟩⟩ h
  · exact List.append_nil _

end Entry

/-! ## Fields of an entry -/

/-- The fields of an entry that are looked at in any case. -/
def headFields : List String := ["name", "kind", "scope", "title", "condition", "services"]

/-- The fields of an entry that are looked at when its name, kind and scope are sound. -/
def flagFields : List String := flags.map Prod.fst ++ ["function"]

section Fields

variable {d : Document} {place : Location} {i : Issue}

theorem about_of_mem_headIssues (mem : i ∈ headIssues d place) :
    ∃ field ∈ headFields, i.ErrorAbout place field := by
  simp only [headIssues, List.mem_append] at mem
  rcases mem with mem | mem | mem | mem | mem | mem
  · exact ⟨"name", by decide, requireText_about i mem⟩
  · exact ⟨"kind", by decide, checkKindWord_about i mem⟩
  · exact ⟨"scope", by decide, wordOr_about i mem⟩
  · exact ⟨"title", by decide, optionalText_about i mem⟩
  · exact ⟨"condition", by decide, (checkGroupCondition_inside i mem).about⟩
  · exact ⟨"services", by decide, (checkServices_inside i mem).about⟩

theorem about_of_mem_flagIssues {word : String} (mem : i ∈ flagIssues d place word) :
    ∃ field ∈ flagFields, i.ErrorAbout place field := by
  rcases List.mem_append.1 mem with mem | mem
  · obtain ⟨flag, known, mem⟩ := List.mem_flatMap.1 mem
    exact ⟨flag.1, List.mem_append_left _ (List.mem_map_of_mem known), optionalBoolean_about i mem⟩
  · exact ⟨"function", List.mem_append_right _ List.mem_cons_self, checkKind_about i mem⟩

theorem checkGrouping_inside : (checkGrouping d place).Only (·.ErrorIn place) := by
  cases d with
  | record fields =>
    intro i mem
    by_cases headed : Headed (.record fields)
    · obtain ⟨word, -, issues⟩ := issues_checkGrouping_of_headed headed place
      rw [issues] at mem
      rcases List.mem_append.1 mem with mem | mem
      · obtain ⟨field, -, about⟩ := about_of_mem_headIssues mem
        exact about.inside
      · obtain ⟨field, -, about⟩ := about_of_mem_flagIssues mem
        exact about.inside
    · rw [issues_checkGrouping_of_not_headed headed] at mem
      obtain ⟨field, -, about⟩ := about_of_mem_headIssues mem
      exact about.inside
  | null | boolean _ | number _ | text _ | list _ => exact only_reported ⟨rfl, In.self _⟩ _

end Fields

/-! ## Entries of a direction -/

section Entries

variable {place : Location} {taken : List (String × Location)} {entries : List (Document × Nat)}
  {i : Issue}

/-- An entry is checked, its name is compared with those before, and the other entries follow. -/
theorem issues_checkEntries_cons (place : Location) (taken : List (String × Location))
    (d : Document) (n : Nat) (rest : List (Document × Nat)) :
    ∃ repeated taken', (∀ i ∈ repeated, ∃ name earlier,
        i = .duplicateGroup (place.index n) name earlier) ∧
      (checkEntries place taken ((d, n) :: rest)).issues =
        (checkGrouping d (place.index n)).issues ++
          (repeated ++ (checkEntries place taken' rest).issues) := by
  rw [checkEntries, issues_bind]
  cases (checkGrouping d (place.index n)).value with
  | none => exact ⟨[], taken, by simp, rfl⟩
  | some g =>
    dsimp only
    cases taken.lookup g.name with
    | none => exact ⟨[], (g.name, place.index n) :: taken, by simp, by simp⟩
    | some earlier =>
      refine ⟨[.duplicateGroup (place.index n) g.name earlier], taken, ?_, rfl⟩
      intro i mem
      exact ⟨g.name, earlier, List.mem_singleton.1 mem⟩

theorem mem_checkEntries_of_mem {e : Document × Nat} (mem : e ∈ entries)
    (found : i ∈ (checkGrouping e.1 (place.index e.2)).issues) :
    i ∈ (checkEntries place taken entries).issues := by
  induction entries generalizing taken with
  | nil => cases mem
  | cons first rest ih =>
    obtain ⟨repeated, taken', -, issues⟩ :=
      issues_checkEntries_cons place taken first.1 first.2 rest
    rw [issues, List.mem_append, List.mem_append]
    rcases List.mem_cons.1 mem with rfl | later
    · exact .inl found
    · exact .inr (.inr (ih later))

theorem exists_of_mem_checkEntries (mem : i ∈ (checkEntries place taken entries).issues) :
    ∃ e ∈ entries, i ∈ (checkGrouping e.1 (place.index e.2)).issues ∨
      ∃ name earlier, i = .duplicateGroup (place.index e.2) name earlier := by
  induction entries generalizing taken with
  | nil => cases mem
  | cons first rest ih =>
    obtain ⟨repeated, taken', repeats, issues⟩ :=
      issues_checkEntries_cons place taken first.1 first.2 rest
    rw [issues, List.mem_append, List.mem_append] at mem
    rcases mem with here | again | later
    · exact ⟨first, List.mem_cons_self, .inl here⟩
    · exact ⟨first, List.mem_cons_self, .inr (repeats i again)⟩
    · obtain ⟨e, he, found⟩ := ih later
      exact ⟨e, List.mem_cons_of_mem _ he, found⟩

theorem checkEntries_inside : (checkEntries place taken entries).Only (·.ErrorIn place) := by
  intro i mem
  obtain ⟨e, -, found | ⟨name, earlier, rfl⟩⟩ := exists_of_mem_checkEntries mem
  · exact (checkGrouping_inside i found).of_index
  · exact ⟨rfl, In.of_index (In.self _)⟩

theorem checkGroupings_inside {d : Document} : (checkGroupings d place).Only (·.ErrorIn place) := by
  unfold checkGroupings
  split
  · exact checkEntries_inside
  · exact only_reported ⟨rfl, In.self _⟩ _

end Entries

/-! ## The whole document -/

section Processing

variable {d : Document} {value : Option Document} {place : Location}

theorem checkAction_inside (kind : TaskKind) : (checkAction d place kind).Only (·.ErrorIn place) := by
  cases kind with
  | manual => exact checkTexts_about.inside.bind fun _ => only_pure _
  | execute => exact requireText_about.inside.bind fun _ => only_pure _
  | configure => exact requireText_about.inside.bind fun _ => only_pure _
  | restart | start | stop | serviceCheck => exact only_pure _

theorem checkTask_inside (entry : Document × Nat) :
    (checkTask place entry).Only (·.ErrorIn place) := by
  refine Only.imp ?_ fun _ (h : ErrorIn _ (place.index entry.2)) => h.of_index
  unfold checkTask
  dsimp only
  split
  · refine requireWord_about.inside.bind fun kind =>
      optionalText_about.inside.bind fun _ => ?_
    cases kind with
    | none => exact only_pure _
    | some kind => exact (checkAction_inside kind).bind fun _ => only_pure _
  · exact only_reported ⟨rfl, In.self _⟩ _

theorem checkTasks_inside : (checkTasks value place).Only (·.ErrorIn place) :=
  itemsOf_inside.bind fun _ =>
    (only_all fun task _ => checkTask_inside task).bind fun _ => only_pure _

theorem checkComponent_inside (entry : String × Document) :
    (checkComponent place entry).Only (·.ErrorIn place) := by
  refine Only.imp ?_ fun _ (h : ErrorIn _ (place.field entry.1)) => h.of_field
  unfold checkComponent
  dsimp only
  split
  · exact (checkTasks_inside.imp fun _ => ErrorIn.of_field).bind fun _ => only_pure _
  · exact only_reported ⟨rfl, In.self _⟩ _

theorem checkServiceProcessing_inside (entry : String × Document) :
    (checkServiceProcessing place entry).Only (·.ErrorIn place) := by
  refine Only.imp ?_ fun _ (h : ErrorIn _ (place.field entry.1)) => h.of_field
  unfold checkServiceProcessing
  dsimp only
  split
  · exact (only_all fun component _ => checkComponent_inside component).bind fun _ => only_pure _
  · exact only_reported ⟨rfl, In.self _⟩ _

theorem checkProcessing_inside :
    (checkProcessing value).Only (·.ErrorIn (Location.top "processing")) :=
  fieldsOf_inside.bind fun _ =>
    (only_all fun service _ => checkServiceProcessing_inside service).bind fun _ => only_pure _

theorem checkTargetStack_about : (checkTargetStack d).Only (·.ErrorAbout [] "targetStack") := by
  refine requireText_about.bind fun target => ?_
  cases target with
  | none => exact only_pure _
  | some t =>
    dsimp only
    split
    · exact (only_reported ⟨rfl, .inl (In.self _)⟩ _).bind fun _ => only_pure _
    · exact only_pure _

theorem checkDowngrade_inside : (checkDowngrade value place).Only (·.ErrorIn place) := by
  unfold checkDowngrade
  split
  · exact only_pure _
  · exact checkGroupings_inside.map some

theorem checkUpgrade_inside : (checkUpgrade value ((Location.top "groups").field "upgrade")).Only
    (·.ErrorIn (Location.top "groups")) := by
  unfold checkUpgrade
  split
  · exact only_reported ⟨rfl, In.self _⟩ _
  · exact checkGroupings_inside.imp fun _ => ErrorIn.of_field

theorem checkGroups_inside : (checkGroups value).Only (·.ErrorIn (Location.top "groups")) := by
  unfold checkGroups
  split
  · exact checkUpgrade_inside.bind fun _ =>
      (checkDowngrade_inside.imp fun _ => ErrorIn.of_field).bind fun _ => only_pure _
  · exact only_reported ⟨rfl, In.self _⟩ _

end Processing

/-- The place of an entry of the upgrade. -/
def entryPlace (n : Nat) : Location := ((Location.top "groups").field "upgrade").index n

theorem find_entryPlace {d entry : Document} {n : Nat} (h : (entryPlace n).find? d = some entry) :
    ∃ fields groups items, d = .record fields ∧ d.field? "groups" = some (.record groups) ∧
      (Document.record groups).field? "upgrade" = some (.list items) ∧ items[n]? = some entry := by
  have h' : ((d.field? "groups").bind fun g => (g.field? "upgrade").bind fun v =>
      Location.find? v [.index n]) = some entry := h
  obtain ⟨g, hg, h'⟩ := Option.bind_eq_some_iff.1 h'
  obtain ⟨v, hv, h'⟩ := Option.bind_eq_some_iff.1 h'
  have record_of_field {d v : Document} {field : String} (there : d.field? field = some v) :
      ∃ fields, d = .record fields := by
    cases d with
    | record fields => exact ⟨fields, rfl⟩
    | null | boolean _ | number _ | text _ | list _ => cases there
  obtain ⟨fields, rfl⟩ := record_of_field hg
  obtain ⟨groups, rfl⟩ := record_of_field hv
  cases v with
  | list items =>
    refine ⟨fields, groups, items, rfl, hg, hv, ?_⟩
    simpa [Location.find?] using h'
  | null | boolean _ | number _ | text _ | record _ => cases h'

section Document

variable {d entry : Document} {n : Nat} {i : Issue}

/-- The errors of a document are those of its parts. -/
theorem mem_check_record_iff {fields : List (String × Document)} (error : i.isError = true) :
    i ∈ (check (.record fields)).issues ↔
      i ∈ (requireText (.record fields) "name" []).issues ∨
      i ∈ (requireWord Orchestration (.record fields) "type" []).issues ∨
      i ∈ (checkTargetStack (.record fields)).issues ∨
      i ∈ (checkProcessing ((Document.record fields).field? "processing")).issues ∨
      i ∈ (checkGroups ((Document.record fields).field? "groups")).issues := by
  have no_warning {processing : ProcessingMap} {through : List String} {direction : String}
      {gs : List Grouping} : i ∉ unprocessedIn processing through direction gs := fun mem =>
    Bool.eq_false_iff.1 (not_isError_of_mem_unprocessedIn mem) error
  simp only [check, checkFields, issues_bind, List.mem_append]
  split
  · simp only [issues_bind, issues_pure, List.mem_append, no_warning, List.not_mem_nil, or_false]
  · simp only [issues_pure, List.not_mem_nil, or_false]

/-- The errors of an entry of the upgrade are found by the check of the entries, and nowhere
else. -/
theorem mem_check_iff {fields groups : List (String × Document)} {items : List Document}
    (hgroups : (Document.record fields).field? "groups" = some (.record groups))
    (hupgrade : (Document.record groups).field? "upgrade" = some (.list items))
    (error : i.isError = true) (inside : i.In (entryPlace n)) :
    i ∈ (check (.record fields)).issues ↔
      i ∈ (checkEntries ((Location.top "groups").field "upgrade") [] items.zipIdx).issues := by
  have of_groups : i.About [] "groups" := .inl inside.of_index.of_field
  have of_upgrade : i.About (Location.top "groups") "upgrade" := .inl inside.of_index
  rw [mem_check_record_iff error, hgroups]
  simp only [checkGroups, hupgrade, checkUpgrade, checkGroupings, issues_bind, issues_pure,
    List.mem_append, List.not_mem_nil, or_false]
  constructor
  · rintro (name | type | target | processing | upgrade | downgrade)
    · exact absurd ((requireText_about i name).about.unique of_groups) (by decide)
    · exact absurd ((requireWord_about i type).about.unique of_groups) (by decide)
    · exact absurd ((checkTargetStack_about i target).about.unique of_groups) (by decide)
    · have of_processing : i.About [] "processing" := .inl (checkProcessing_inside i processing).inside
      exact absurd (of_processing.unique of_groups) (by decide)
    · exact upgrade
    · have of_downgrade : i.About (Location.top "groups") "downgrade" :=
        .inl (checkDowngrade_inside i downgrade).inside
      exact absurd (of_downgrade.unique of_upgrade) (by decide)
  · intro upgrade
    exact .inr (.inr (.inr (.inr (.inl upgrade))))

/-- What the check of an entry finds is among the issues of the document. -/
theorem mem_check_of_mem (there : (entryPlace n).find? d = some entry) (error : i.isError = true)
    (mem : i ∈ (checkGrouping entry (entryPlace n)).issues) : i ∈ (check d).issues := by
  obtain ⟨fields, groups, items, rfl, hgroups, hupgrade, hentry⟩ := find_entryPlace there
  rw [mem_check_iff hgroups hupgrade error (checkGrouping_inside i mem).inside]
  have listed : (entry, n) ∈ items.zipIdx := List.mem_zipIdx_iff_getElem?.2 hentry
  exact mem_checkEntries_of_mem listed mem

/-- What is found in an entry, and not about its name being taken, the check of the entry finds. -/
theorem mem_checkGrouping_of_mem {field : String} (there : (entryPlace n).find? d = some entry)
    (error : i.isError = true) (about : i.About (entryPlace n) field)
    (mem : i ∈ (check d).issues) : i ∈ (checkGrouping entry (entryPlace n)).issues := by
  obtain ⟨fields, groups, items, rfl, hgroups, hupgrade, hentry⟩ := find_entryPlace there
  rw [mem_check_iff hgroups hupgrade error about.inside] at mem
  obtain ⟨⟨entry', m⟩, he, found⟩ := exists_of_mem_checkEntries mem
  rcases found with found | ⟨name, earlier, rfl⟩
  · have same : m = n := Location.index_unique (checkGrouping_inside i found).inside about.inside
    subst same
    obtain rfl := Option.some.inj ((List.mem_zipIdx_iff_getElem?.1 he).symm.trans hentry)
    exact found
  · have same : m = n := Location.index_unique List.prefix_rfl about.inside
    subst same
    rcases about with deeper | missing
    · exact absurd deeper (Location.field_longer _ _)
    · cases missing

end Document

/-! ## Spoilt fields -/

/-- A field of an entry that calls for an error: a flag that is no boolean, or the function of a
function group that is missing or unknown. -/
inductive Spoilt (entry : Document) : String → Prop
  | flag {field : String} {v : Document} : field ∈ flags.map Prod.fst →
      entry.field? field = some v → (∀ b, v ≠ .boolean b) → Spoilt entry field
  | function : entry.field? "kind" = some (.text "function") →
      (∀ f : FunctionName, ¬ entry.HasWord "function" f) → Spoilt entry "function"

section Spoilt

variable {d entry : Document} {place : Location} {field : String} {n : Nat}

theorem Spoilt.mem_flagFields (spoilt : Spoilt entry field) : field ∈ flagFields := by
  cases spoilt with
  | flag known _ _ => exact List.mem_append_left _ known
  | function _ _ => exact List.mem_append_right _ List.mem_cons_self

theorem Spoilt.isSome_fields (spoilt : Spoilt entry field) : entry.fields?.isSome := by
  cases entry with
  | record fields => rfl
  | null | boolean _ | number _ | text _ | list _ =>
    cases spoilt with
    | flag _ there _ => cases there
    | function kind _ => cases kind

theorem optionalBoolean_finds {v : Document} (there : d.field? field = some v)
    (other : ∀ b, v ≠ .boolean b) (fallback : Bool) :
    (optionalBoolean d field place fallback).Finds place field := by
  refine ⟨.ofKind (place.field field) "boolean" v, ?_, rfl, .inl rfl⟩
  unfold optionalBoolean
  rw [there]
  cases v with
  | boolean b => exact absurd rfl (other b)
  | null | number _ | text _ | list _ | record _ => exact List.mem_cons_self

theorem requireWord_finds {α : Type} [Named α] [LawfulNamed α] (filled : place ≠ [])
    (other : ∀ a : α, ¬ d.HasWord field a) : (requireWord α d field place).Finds place field := by
  unfold requireWord
  cases found : d.field? field with
  | none =>
    have here : missingPlace place field = place := if_neg (by simpa using filled)
    exact ⟨_, List.mem_cons_self, rfl, .inr (by rw [here])⟩
  | some v =>
    cases known : v.text?.bind (Named.ofName? (α := α)) with
    | none =>
      refine ⟨.unknownValue (place.field field) v (Named.names α), ?_, rfl, .inl rfl⟩
      simp only [known]
      exact List.mem_cons_self
    | some a =>
      rw [text?_bind_ofName?_eq_some_iff] at known
      exact absurd (found.trans (congrArg some known)) (other a)

/-- A spoilt field is reported when the flags of its entry are looked at. -/
theorem Spoilt.exists_issue (spoilt : Spoilt entry field) (filled : place ≠ []) {word : String}
    (hword : Reads (entry.field? "kind") (fun v w => v = .text w) "default" word) :
    ∃ i ∈ flagIssues entry place word, i.isError = true ∧ i.At place field := by
  cases spoilt with
  | flag known there other =>
    obtain ⟨flag, listed, rfl⟩ := List.mem_map.1 known
    obtain ⟨i, mem, found⟩ := optionalBoolean_finds there other flag.2
    exact ⟨i, List.mem_append_left _ (List.mem_flatMap.2 ⟨flag, listed, mem⟩), found⟩
  | function kind other =>
    rw [kind] at hword
    obtain rfl : "function" = word := Document.text.inj hword
    obtain ⟨i, mem, found⟩ := requireWord_finds filled other
    exact ⟨i, List.mem_append_right _ (List.mem_append_left _ mem), found⟩

/-- What is reported of a field that is looked at only when name, kind and scope are sound. -/
theorem headed_of_finds (isEntry : (entryPlace n).find? d = some entry)
    (fields : entry.fields?.isSome) (other : field ∉ headFields)
    (found : (check d).Finds (entryPlace n) field) : Headed entry := by
  obtain ⟨i, mem, error, here⟩ := found
  have mem' := mem_checkGrouping_of_mem isEntry error here.about mem
  cases entry with
  | record fields =>
    by_contra headless
    rw [issues_checkGrouping_of_not_headed headless] at mem'
    obtain ⟨field', known, about⟩ := about_of_mem_headIssues mem'
    exact other (about.about.unique here.about ▸ known)
  | null | boolean _ | number _ | text _ | list _ => cases fields

/-- **What is reported of spoilt fields.** A spoilt flag of an entry of the upgrade, or its spoilt
function, is reported by an error for that field if and only if the name, the kind and the scope of
the entry are sound, whatever else is wrong with the document. -/
theorem spoilt_reported_iff (isEntry : (entryPlace n).find? d = some entry)
    (spoilt : Spoilt entry field) : (check d).Finds (entryPlace n) field ↔ Headed entry := by
  constructor
  · have other : ∀ field ∈ flagFields, field ∉ headFields := by decide
    exact headed_of_finds isEntry spoilt.isSome_fields (other field spoilt.mem_flagFields)
  · intro headed
    obtain ⟨word, hword, issues⟩ := issues_checkGrouping_of_headed headed (entryPlace n)
    obtain ⟨i, mem, error, here⟩ := spoilt.exists_issue (List.cons_ne_nil _ _) hword
    have found : i ∈ (checkGrouping entry (entryPlace n)).issues := by
      rw [issues]
      exact List.mem_append_right _ mem
    exact ⟨i, mem_check_of_mem isEntry error found, error, here⟩

end Spoilt

/-! ## A grouping without a name -/

/-- A pack document without a name, whose upgrade has one entry. -/
def namelessPack (entry : Document) : Document :=
  .record [("type", .text "ROLLING"), ("targetStack", .text "HDP-2.3"),
    ("groups", .record [("upgrade", .list [entry])])]

/-- A grouping without its function, and with a text for a flag. -/
def stopEntry : Document :=
  .record [("name", .text "STOP"), ("kind", .text "function"), ("skippable", .text "yes")]

/-- The same grouping without a name. -/
def namelessEntry : Document :=
  .record [("kind", .text "function"), ("skippable", .text "yes")]

/-- Both spoilt fields of the grouping are reported, although the pack has no name. -/
theorem spoilt_reported_stopEntry :
    (entryPlace 0).find? (namelessPack stopEntry) = some stopEntry ∧
    Spoilt stopEntry "skippable" ∧ Spoilt stopEntry "function" ∧
    (check (namelessPack stopEntry)).Finds (entryPlace 0) "skippable" ∧
    (check (namelessPack stopEntry)).Finds (entryPlace 0) "function" := by
  have isEntry : (entryPlace 0).find? (namelessPack stopEntry) = some stopEntry := rfl
  have flag : Spoilt stopEntry "skippable" := .flag List.mem_cons_self rfl nofun
  have function : Spoilt stopEntry "function" := .function rfl fun _ => nofun
  have headed : Headed stopEntry :=
    ⟨⟨"STOP", rfl, by decide⟩, ⟨"function", by decide, rfl⟩, ⟨.complete, rfl⟩⟩
  exact ⟨isEntry, flag, function, (spoilt_reported_iff isEntry flag).2 headed,
    (spoilt_reported_iff isEntry function).2 headed⟩

/-- Neither of them is reported of the grouping without a name. -/
theorem spoilt_unreported :
    (entryPlace 0).find? (namelessPack namelessEntry) = some namelessEntry ∧
    Spoilt namelessEntry "skippable" ∧ Spoilt namelessEntry "function" ∧
    ¬ (check (namelessPack namelessEntry)).Finds (entryPlace 0) "skippable" ∧
    ¬ (check (namelessPack namelessEntry)).Finds (entryPlace 0) "function" := by
  have isEntry : (entryPlace 0).find? (namelessPack namelessEntry) = some namelessEntry := rfl
  have headless : ¬ Headed namelessEntry := by
    rintro ⟨⟨name, there, -⟩, -, -⟩
    cases there
  exact ⟨isEntry, .flag List.mem_cons_self rfl nofun, .function rfl fun _ => nofun,
    fun found => headless (headed_of_finds isEntry rfl (by decide) found),
    fun found => headless (headed_of_finds isEntry rfl (by decide) found)⟩

end ClusterUpgrade.Pack
