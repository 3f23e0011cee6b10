import ClusterUpgrade.Proofs.Pack.Declared

/-!
# Accepted packs are accepted again

The document of an accepted pack declares just that pack (`Pack.declaredIn_document`): whatever the
check has filled in, it finds there. So checking it again gives the same pack. The warnings are the
same too unless a document declares components under the name that stands for a record itself: they
show through as services there, but not in the document of the pack (`Pack.check_document`).
-/

namespace ClusterUpgrade

open Document (Reads ListOf RecordOf)

/-! ## Fields of written documents -/

namespace Document

variable {α : Type}

/-- A field that is written only if it is there. -/
theorem field?_ofOptional {fields : List (String × Option Document)}
    (distinct : (fields.map Prod.fst).Nodup) (name : String) :
    (ofOptional fields).field? name = (fields.lookup name).join := by
  rw [ofOptional, field?]
  induction fields with
  | nil => rfl
  | cons e rest ih =>
    obtain ⟨key, value⟩ := e
    rw [List.map_cons, List.nodup_cons] at distinct
    rw [List.filterMap_cons, lookup_entry_cons]
    cases value with
    | some d =>
      dsimp only [Option.map_some]
      rw [lookup_entry_cons, ih distinct.2]
      split <;> rfl
    | none =>
      dsimp only [Option.map_none]
      rw [ih distinct.2]
      split
      · next same =>
        have missing : rest.lookup name = none := by
          rw [← Option.not_isSome_iff_eq_none, Record.lookup_isSome_iff, same]
          exact distinct.1
        rw [missing]
        rfl
      · rfl

theorem field?_ofRecord (f : α → Document) (r : Record α) (name : String) :
    (ofRecord f r).field? name = (r.get? name).map f :=
  Record.get?_map f r name

/-! ## Reading what has been written -/

variable {value : Option Document}

/-- What may be missing can be read again where it is written. -/
theorem Reads.of_map {R : Document → α → Prop} {o : Option α} {f : α → Document}
    (read : Reads value (fun v o => ∃ a, o = some a ∧ R v a) none o)
    (each : ∀ d a, R d a → R (f a) a) :
    Reads (o.map f) (fun v o => ∃ a, o = some a ∧ R v a) none o := by
  cases o with
  | none => exact rfl
  | some a =>
    obtain ⟨v, -, _, ⟨⟩, ha⟩ := read.exists_of_ne (Option.some_ne_none a)
    exact ⟨a, rfl, each v a ha⟩

/-- A list can be read again from the list of its items. -/
theorem ListOf.of_map {R : Document → α → Prop} {v : Document} {as : List α} {f : α → Document}
    (read : ListOf R v as) (each : ∀ d a, R d a → R (f a) a) : ListOf R (list (as.map f)) as := by
  obtain ⟨items, -, related⟩ := read
  refine ⟨as.map f, rfl, ?_⟩
  rw [List.forall₂_map_left_iff, List.forall₂_same]
  intro a mem
  obtain ⟨d, -, hd⟩ := exists_mem_of_forall₂ related mem
  exact each d a hd

theorem Reads.listOf_map {R : Document → α → Prop} {as : List α} {f : α → Document}
    (read : Reads value (ListOf R) [] as) (each : ∀ d a, R d a → R (f a) a) :
    ListOf R (list (as.map f)) as := by
  cases value with
  | none =>
    rw [reads_none.1 read]
    exact ⟨[], rfl, .nil⟩
  | some v => exact ListOf.of_map read each

/-- A record can be read again from the record of its values. -/
theorem RecordOf.of_ofRecord {R : String → Document → α → Prop} {v : Document} {r : Record α}
    {f : α → Document} (read : RecordOf R v r) (each : ∀ key d a, R key d a → R key (f a) a) :
    RecordOf R (ofRecord f r) r := by
  refine ⟨_, r.entries, rfl, ?_, ?_⟩
  · rw [List.forall₂_map_left_iff, List.forall₂_same]
    intro e mem
    obtain ⟨d, hd⟩ := read.exists_of_get? (Record.get?_eq_some_iff.2 mem)
    exact ⟨rfl, each e.1 d e.2 hd⟩
  · obtain ⟨_, entries, -, -, rfl⟩ := read
    exact (Reserved.record_entries entries).symm

theorem Reads.recordOf_ofRecord {R : String → Document → α → Prop} {r : Record α}
    {f : α → Document} (read : Reads value (RecordOf R) Record.empty r)
    (each : ∀ key d a, R key d a → R key (f a) a) : RecordOf R (ofRecord f r) r := by
  cases value with
  | none =>
    rw [reads_none.1 read]
    exact ⟨[], [], rfl, .nil, rfl⟩
  | some v => exact RecordOf.of_ofRecord read each

end Document

/-! ## Parts of packs -/

theorem Condition.declaredIn_document {d : Document} {c : Condition} (declared : c.DeclaredIn d) :
    c.DeclaredIn c.document := by
  cases c with
  | security mode => exact ⟨rfl, rfl⟩
  | config configType property comparison value =>
    obtain ⟨-, ⟨-, typed⟩, ⟨-, named⟩, -, -⟩ := declared
    have field (name : String) : (config configType property comparison value).document.field?
        name = _ := Document.field?_ofOptional (by simp) name
    simp [Condition.DeclaredIn, Document.HasText, Document.HasWord, field, lookup_entry_cons,
      typed, named]

theorem OrderedService.declaredIn_document {d : Document} {s : OrderedService}
    (declared : s.DeclaredIn d) : s.DeclaredIn s.document :=
  ⟨⟨rfl, declared.1.2⟩, rfl⟩

theorem Grouping.declaredIn_document {d : Document} {g : Grouping} (declared : g.DeclaredIn d) :
    g.DeclaredIn g.document := by
  have field (name : String) : g.document.field? name = _ :=
    Document.field?_ofOptional (by simp) name
  constructor <;> simp [Document.HasText, Document.HasWord, field, lookup_entry_cons]
  case name => exact declared.name.2
  case function => exact fun f named => ⟨f, named, rfl⟩
  case condition =>
    exact declared.condition.of_map fun _ _ => Condition.declaredIn_document
  case services =>
    exact declared.services.listOf_map fun _ _ => OrderedService.declaredIn_document

theorem Task.declaredIn_document {d : Document} {t : Task} (declared : t.DeclaredIn d) :
    t.DeclaredIn t.document := by
  obtain ⟨action, summary⟩ := t
  obtain ⟨-, payload, -⟩ := declared
  have field (name : String) : (Task.mk action summary).document.field? name = _ :=
    Document.field?_ofOptional (by cases action <;> simp) name
  cases action <;> simp [Task.DeclaredIn, Task.kind, Action.DeclaredIn, Document.HasText,
    Document.HasWord, Document.Lists, field, lookup_entry_cons]
  case manual => rfl
  case execute => exact payload.2
  case configure => exact payload.2

theorem Processing.declaredIn_document {component : String} {d : Document} {p : Processing}
    (declared : p.DeclaredIn component d) : p.DeclaredIn component p.document :=
  ⟨declared.1, rfl, declared.2.2.listOf_map fun _ _ => Task.declaredIn_document⟩

namespace Pack

variable {d : Document} {p : Pack}

theorem declaredAll_documents {v : Document} {gs : List Grouping}
    (declared : Grouping.DeclaredAll v gs) :
    Grouping.DeclaredAll (.list (gs.map Grouping.document)) gs :=
  ⟨declared.1.of_map fun _ _ => Grouping.declaredIn_document, declared.2⟩

theorem field?_groups_document (direction : String) :
    (p.document.field? "groups").bind (·.field? direction) =
      ([("upgrade", some (.list (p.upgrade.map Grouping.document))),
        ("downgrade", p.downgrade.map fun gs => .list (gs.map Grouping.document))].lookup
          direction).join :=
  Document.field?_ofOptional (by simp) direction

/-- The document of a pack declares it. -/
theorem declaredIn_document (declared : DeclaredIn d p) : DeclaredIn p.document p where
  name := ⟨rfl, declared.name.2⟩
  orchestration := rfl
  targetStack := ⟨rfl, declared.targetStack.2⟩
  parsed := declared.parsed
  processing := declared.processing.recordOf_ofRecord fun _ _ _ read =>
    read.of_ofRecord fun _ _ _ => Processing.declaredIn_document
  upgrade := by
    obtain ⟨v, -, all⟩ := declared.upgrade
    refine ⟨_, ?_, declaredAll_documents all⟩
    rw [field?_groups_document]
    simp
  downgrade := by
    rw [field?_groups_document]
    simpa [lookup_entry_cons] using declared.downgrade.of_map fun _ _ => declaredAll_documents

/-- Nothing shows through in the document of a pack. -/
theorem shownThrough_document (declared : DeclaredIn d p) :
    shownThrough (p.document.field? "processing") = [] := by
  obtain ⟨_, entries, -, -, written⟩ := (declaredIn_document declared).processing
  have missing : (p.document.field? "processing").bind (·.field? Reserved.recordName) = none := by
    refine (Document.field?_ofRecord _ p.processing Reserved.recordName).trans ?_
    rw [written, Reserved.get?_record_recordName]
    rfl
  unfold shownThrough
  rw [missing]
  rfl

/-! ## Warnings again -/

/-- A pack orders a service outside of checks. -/
def Orders (p : Pack) (service : String) : Prop :=
  ∃ g ∈ p.upgrade ++ p.downgrade.getD [], g.kind ≠ .serviceCheck ∧
    ∃ s ∈ g.services, s.serviceName = service

/-- What a rolling pack orders has processing under its own name if it shows through in that of the
document, unless the name is reserved. -/
def OrdersOutright (d : Document) (p : Pack) : Prop :=
  p.orchestration = .rolling → ∀ service, p.Orders service →
    service ∈ shownThrough (d.field? "processing") →
    p.processing.has service ∨ Reserved.isKnown service

theorem exists_unprocessedIn_iff {processing : ProcessingMap} {through : List String}
    {direction service : String} {gs : List Grouping} :
    (∃ place, .unprocessedService place service ∈ unprocessedIn processing through direction gs) ↔
      (∃ g ∈ gs, g.kind ≠ .serviceCheck ∧ ∃ s ∈ g.services, s.serviceName = service) ∧
        isProcessed processing through service = false := by
  simp only [mem_unprocessedIn_iff]
  constructor
  · rintro ⟨_, i, g, j, s, hg, kind, hs, bare, same⟩
    obtain ⟨-, rfl⟩ := Issue.unprocessedService.inj same
    exact ⟨⟨g, List.mem_of_getElem? hg, kind, s, List.mem_of_getElem? hs, rfl⟩, bare⟩
  · rintro ⟨⟨g, hg, kind, s, hs, rfl⟩, bare⟩
    obtain ⟨i, hg⟩ := List.mem_iff_getElem?.1 hg
    obtain ⟨j, hs⟩ := List.mem_iff_getElem?.1 hs
    exact ⟨_, i, g, j, s, hg, kind, hs, bare, rfl⟩

theorem exists_warning_iff {through : List String} {service : String} :
    (∃ place, .unprocessedService place service ∈ p.warnings through) ↔
      p.orchestration = .rolling ∧ p.Orders service ∧
        isProcessed p.processing through service = false := by
  unfold warnings Orders
  split
  · next rolling =>
    simp only [rolling, true_and, List.mem_append, exists_or, exists_unprocessedIn_iff,
      or_and_right]
  · next other => simp [other]

theorem unprocessedIn_congr {processing : ProcessingMap} {through through' : List String}
    {direction : String} {gs : List Grouping}
    (same : ∀ g ∈ gs, g.kind ≠ .serviceCheck → ∀ s ∈ g.services,
      isProcessed processing through s.serviceName =
        isProcessed processing through' s.serviceName) :
    unprocessedIn processing through direction gs =
      unprocessedIn processing through' direction gs := by
  refine List.flatMap_congr fun e mem => ?_
  unfold unprocessed
  split
  · rfl
  · next other =>
    refine List.filterMap_congr fun s hs => ?_
    rw [same e.1 (List.fst_mem_of_mem_zipIdx mem) other s.1 (List.fst_mem_of_mem_zipIdx hs)]

theorem isProcessed_eq_iff {processing : ProcessingMap} {through : List String} {service : String} :
    isProcessed processing [] service = isProcessed processing through service ↔
      (service ∈ through → processing.has service ∨ Reserved.isKnown service) := by
  unfold isProcessed
  cases processing.has service <;> cases Reserved.isKnown service <;> simp

theorem warnings_eq_iff {through : List String} : p.warnings [] = p.warnings through ↔
    (p.orchestration = .rolling → ∀ service, p.Orders service → service ∈ through →
      p.processing.has service ∨ Reserved.isKnown service) := by
  constructor
  · intro same rolling service ordered
    have warned (through : List String) :
        (∃ place, .unprocessedService place service ∈ p.warnings through) ↔
          isProcessed p.processing through service = false := by
      rw [exists_warning_iff, and_iff_right rolling, and_iff_right ordered]
    rw [← isProcessed_eq_iff, Bool.eq_iff_iff, ← not_iff_not, Bool.not_eq_true, Bool.not_eq_true,
      ← warned, ← warned, same]
  · intro outright
    unfold warnings
    split
    · next rolling =>
      have each : ∀ g ∈ p.upgrade ++ p.downgrade.getD [], g.kind ≠ .serviceCheck →
          ∀ s ∈ g.services, isProcessed p.processing [] s.serviceName =
            isProcessed p.processing through s.serviceName := fun g mem kind s hs =>
        isProcessed_eq_iff.2 (outright rolling _ ⟨g, mem, kind, s, hs, rfl⟩)
      rw [List.forall_mem_append] at each
      rw [unprocessedIn_congr each.1, unprocessedIn_congr each.2]
    · rfl

/-- An accepted pack is accepted again as it is. It is warned of the same services, in the same
places, exactly when it orders none that only shows through in its document. -/
theorem check_document (accepted : (check d).value = some p) :
    (check p.document).value = some p ∧
      (check p.document = check d ↔ OrdersOutright d p) := by
  have declared := check_value_iff.1 accepted
  rw [check_of_declared (declaredIn_document declared), check_of_declared declared,
    shownThrough_document declared, Checked.mk.injEq, warnings_eq_iff]
  simp [OrdersOutright]

theorem check_document_zookeeper :
    ∃ p, (check (zookeeperDocument "ZOOKEEPER" "ZOOKEEPER_SERVER")).value = some p ∧
      check p.document = check (zookeeperDocument "ZOOKEEPER" "ZOOKEEPER_SERVER") := by
  have given : (check (zookeeperDocument "ZOOKEEPER" "ZOOKEEPER_SERVER")).value.isSome := by
    decide +kernel
  obtain ⟨p, accepted⟩ := Option.isSome_iff_exists.1 given
  exact ⟨p, accepted, (check_document accepted).2.2 fun _ service _ shown => nomatch shown⟩

/-- A component under the reserved name hides that its namesake is a service without processing. The
pack does not have it any more, and so its own document is warned of. -/
theorem check_document_ne_reserved :
    ∃ p, (check (zookeeperDocument Reserved.recordName "ZOOKEEPER")).value = some p ∧
      check p.document ≠ check (zookeeperDocument Reserved.recordName "ZOOKEEPER") := by
  have again : (check (zookeeperDocument Reserved.recordName "ZOOKEEPER")).value.map
      (fun p => (check p.document).issues.length) = some 1 := by decide +kernel
  have once : (check (zookeeperDocument Reserved.recordName "ZOOKEEPER")).issues.length = 0 := by
    decide +kernel
  obtain ⟨p, accepted, warned⟩ := Option.map_eq_some_iff.1 again
  refine ⟨p, accepted, fun same => ?_⟩
  rw [same, once] at warned
  cases warned

end Pack

end ClusterUpgrade
