import ClusterUpgrade.Proofs.Pack.Declared

/-!
# What a check of a pack keeps

A pack is given exactly when no error is reported. It has one grouping for each entry of its
document and one task for each task, in order (`Pack.Lossless`), with one exception that no issue
tells of: nothing can be written under the name that stands for a record itself, so what is declared
for a service or a component of that name is lost (`Pack.lossless_iff`).
-/

namespace ClusterUpgrade

open Document (Reads ListOf RecordOf WholeRecord Writable)

/-- A task whose payload is not empty, if its kind calls for a text. -/
def Task.HasPayload (t : Task) : Prop := t.action ≠ .execute "" ∧ t.action ≠ .configure ""

/-- A grouping with the name, the kind and the services of its document, and with the function that
is named there. -/
structure Grouping.Keeps (d : Document) (g : Grouping) : Prop where
  name : d.field? "name" = some (.text g.name)
  kind : Reads (d.field? "kind") (fun v w => v = .text w) "default" g.kind.word
  function : ∀ f, g.kind = .function f → d.field? "function" = some (.text (Named.name f))
  services : Reads (d.field? "services") (ListOf OrderedService.DeclaredIn) [] g.services

variable {d : Document}

theorem Grouping.keeps_of_declaredIn {g : Grouping} (declared : g.DeclaredIn d) : g.Keeps d where
  name := declared.name.1
  kind := declared.kind
  function f named := declared.function f (named ▸ rfl)
  services := declared.services

namespace Pack

variable {p : Pack}

/-- A pack that can be used: the groupings of a direction are told apart by name, the target is a
stack id, and tasks have their payload. -/
structure Sound (p : Pack) : Prop where
  names : ∀ direction, ((p.groupings direction).map (·.name)).Nodup
  target : (StackId.parse? p.targetStack).isSome
  payloads : ∀ service component c, p.processing.find? service component = some c →
    ∀ t ∈ c.tasks, t.HasPayload

/-- A pack with one grouping for each entry of its document, in order, and with groupings for a
downgrade exactly when the document has them. -/
structure KeepsGroups (d : Document) (p : Pack) : Prop where
  upgrade : ∃ v, (d.field? "groups").bind (·.field? "upgrade") = some v ∧
    ListOf Grouping.Keeps v p.upgrade
  downgrade : Reads ((d.field? "groups").bind (·.field? "downgrade"))
    (fun v o => ∃ gs, o = some gs ∧ ListOf Grouping.Keeps v gs) none p.downgrade

/-- A pack with every service and component that its document has processing for, and one task for
each task there, in order. -/
def KeepsProcessing (d : Document) (p : Pack) : Prop :=
  Reads (d.field? "processing") (WholeRecord fun _ => WholeRecord Processing.DeclaredIn)
    Record.empty p.processing

/-- A document whose pack is given exactly when no error is reported, and then loses nothing. -/
def Lossless (d : Document) : Prop :=
  ((check d).value.isSome ↔ Issues.valid (check d).issues) ∧
    ∀ p, (check d).value = some p → p.Sound ∧ KeepsGroups d p ∧ KeepsProcessing d p

/-- A document in which something can be written under the name of each service and component that
has processing. -/
def NamesWritable (d : Document) : Prop :=
  ∀ v, d.field? "processing" = some v → v.Writable (Writable fun _ => True)

theorem value_isSome_iff : (check d).value.isSome ↔ Issues.valid (check d).issues := by
  constructor
  · intro given
    obtain ⟨p, hp⟩ := Option.isSome_iff_exists.1 given
    rw [check_of_declared (check_value_iff.1 hp)]
    exact valid_warnings _ _
  · intro ok
    obtain ⟨p, declared⟩ := exists_declared_of_valid ok
    rw [check_value_iff.2 declared]
    rfl

theorem listOf_keeps {v : Document} {gs : List Grouping} (declared : Grouping.DeclaredAll v gs) :
    ListOf Grouping.Keeps v gs := by
  obtain ⟨⟨items, rfl, related⟩, -⟩ := declared
  exact ⟨items, rfl, related.imp fun _ _ => Grouping.keeps_of_declaredIn⟩

theorem keepsGroups_of_declaredIn (declared : DeclaredIn d p) : KeepsGroups d p where
  upgrade := by
    obtain ⟨v, there, all⟩ := declared.upgrade
    exact ⟨v, there, listOf_keeps all⟩
  downgrade := declared.downgrade.imp fun v => by
    rintro ⟨gs, same, all⟩
    exact ⟨gs, same, listOf_keeps all⟩

theorem hasPayload_of_declaredIn {t : Task} (declared : t.DeclaredIn d) : t.HasPayload := by
  obtain ⟨-, payload, -⟩ := declared
  constructor <;> intro empty <;> rw [empty] at payload <;> exact payload.2 rfl

theorem sound_of_declaredIn (declared : DeclaredIn d p) : p.Sound where
  names direction := by
    obtain ⟨v, -, -, up⟩ := declared.upgrade
    cases direction with
    | upgrade => exact up
    | downgrade =>
      rw [groupings]
      cases given : p.downgrade with
      | none => exact up
      | some gs =>
        obtain ⟨v, -, _, same, -, down⟩ := declared.downgrade.exists_of_ne (by simp [given])
        rw [given] at same
        exact Option.some.inj same ▸ down
  target := declared.parsed
  payloads service component c found t mem := by
    obtain ⟨components, there, found⟩ := Option.bind_eq_some_iff.1 found
    obtain ⟨v, -, read⟩ := declared.processing.exists_of_ne fun empty => by
      rw [empty] at there
      cases there
    obtain ⟨_, inside⟩ := read.exists_of_get? there
    obtain ⟨_, -, -, tasks⟩ := inside.exists_of_get? found
    obtain ⟨_, -, items, -, related⟩ := tasks.exists_of_ne (List.ne_nil_of_mem mem)
    obtain ⟨_, -, declared⟩ := Document.exists_mem_of_forall₂ related mem
    exact hasPayload_of_declaredIn declared

theorem keepsProcessing_iff (ordered : d.inOrder) (declared : DeclaredIn d p) :
    KeepsProcessing d p ↔ NamesWritable d := by
  refine Document.reads_wholeRecord_iff declared.processing
    (fun v => Document.inOrder_of_field? ordered) ?_
  intro service components r inside read
  refine Document.wholeRecord_iff read inside ?_
  intro component v c _ declared
  exact iff_of_true declared trivial

/-- A pack is given exactly when no error is reported, and it is sound and has all its groupings.
Nothing at all is lost exactly when something can be written under every name in its processing. -/
theorem lossless_iff (ordered : d.inOrder) :
    ((check d).value.isSome ↔ Issues.valid (check d).issues) ∧
    (∀ p, (check d).value = some p → p.Sound ∧ KeepsGroups d p) ∧
    (Lossless d ↔ ((check d).value.isSome → NamesWritable d)) := by
  have kept : ∀ p, (check d).value = some p → p.Sound ∧ KeepsGroups d p := by
    intro p hp
    have declared := check_value_iff.1 hp
    exact ⟨sound_of_declaredIn declared, keepsGroups_of_declaredIn declared⟩
  refine ⟨value_isSome_iff, kept, ?_, ?_⟩
  · rintro ⟨-, all⟩ given
    obtain ⟨p, hp⟩ := Option.isSome_iff_exists.1 given
    exact (keepsProcessing_iff ordered (check_value_iff.1 hp)).1 (all p hp).2.2
  · intro writable
    refine ⟨value_isSome_iff, fun p hp => ⟨(kept p hp).1, (kept p hp).2, ?_⟩⟩
    exact (keepsProcessing_iff ordered (check_value_iff.1 hp)).2 (writable (hp ▸ rfl))

theorem lossless_zookeeper :
    (zookeeperDocument "ZOOKEEPER" "ZOOKEEPER_SERVER").inOrder ∧
      (check (zookeeperDocument "ZOOKEEPER" "ZOOKEEPER_SERVER")).value.isSome ∧
      Lossless (zookeeperDocument "ZOOKEEPER" "ZOOKEEPER_SERVER") := by
  have ordered : (zookeeperDocument "ZOOKEEPER" "ZOOKEEPER_SERVER").inOrder := by decide +kernel
  refine ⟨ordered, by decide +kernel, (lossless_iff ordered).2.2.2 fun _ => ?_⟩
  rintro _ ⟨⟩ _ ⟨⟩
  refine ⟨by decide, List.forall_mem_singleton.2 ?_⟩
  rintro _ ⟨⟩
  exact ⟨by decide, List.forall_mem_singleton.2 trivial⟩

/-- The processing of a service under the reserved name is lost, although no error is reported. -/
theorem not_lossless_reserved :
    ¬ Lossless (zookeeperDocument Reserved.recordName "ZOOKEEPER_SERVER") := by
  have given : (check (zookeeperDocument Reserved.recordName "ZOOKEEPER_SERVER")).value.isSome := by
    decide +kernel
  obtain ⟨p, hp⟩ := Option.isSome_iff_exists.1 given
  rintro ⟨-, all⟩
  have writable := (keepsProcessing_iff (by decide +kernel) (check_value_iff.1 hp)).1 (all p hp).2.2
  exact (writable _ rfl _ rfl).1 List.mem_cons_self

end Pack

end ClusterUpgrade
