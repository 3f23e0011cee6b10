import ClusterUpgrade.Proofs.Parts
import ClusterUpgrade.Proofs.Repositories.Service
import ClusterUpgrade.Proofs.Reserved

/-!
# The moved store

`Store.moved` is a store in which some services have gone to the versions that a run has for them.
To move services one by one is to move them together (`moved_cons`). The components of a service
that has moved have its version recorded for them, as far as it can be (`repositoryIn_moved`).
Moving again changes nothing (`moved_moved`).
-/

namespace ClusterUpgrade

/-! ## Moved services -/

/-- Names tell the services of a store apart, the components of a service, and the hosts of a
component. -/
structure Store.NamesDistinct (s : Store) : Prop where
  services : (s.services.map (·.name)).Nodup
  components : ∀ x ∈ s.services, (x.components.map (·.name)).Nodup
  hosts : ∀ x ∈ s.services, ∀ c ∈ x.components, (c.hosts.map (·.host)).Nodup

/-- The version that a service goes to, if it is one of some services. -/
def UpgradeRun.targetAmong (run : UpgradeRun) (services : List String) (service : String) :
    Option RepositoryVersion := if service ∈ services then run.targets.get? service else none

/-- A service after the move of some services. -/
def ServiceState.moved (run : UpgradeRun) (catalog : StackMetadata) (services : List String)
    (x : ServiceState) : ServiceState :=
  match run.targetAmong services x.name with
  | some target => x.movedTo catalog target
  | none => x

namespace Store

/-- The moves of the components of a service to its target. -/
def movesOf (s : Store) (run : UpgradeRun) (service : String) : List Move :=
  match s.service? service, run.targets.get? service with
  | some x, some target => x.moves target
  | _, _ => []

/-- A store after the move of some services. -/
def moved (s : Store) (run : UpgradeRun) (catalog : StackMetadata) (services : List String) :
    Store :=
  { s with services := s.services.map (ServiceState.moved run catalog services) }.recording
    (services.flatMap (s.movesOf run))

/-- A service can be moved: it is there and has a target. -/
def CanMove (s : Store) (run : UpgradeRun) (service : String) : Prop :=
  service ∈ s.services.map (·.name) ∧ (run.targets.get? service).isSome

end Store

section Moved

variable {run : UpgradeRun} {catalog : StackMetadata} {services : List String} {service : String}
  {x : ServiceState} {s : Store}

theorem ServiceState.moved_of_some {target : RepositoryVersion}
    (h : run.targetAmong services x.name = some target) :
    x.moved run catalog services = x.movedTo catalog target := by
  rw [moved, h]

theorem ServiceState.moved_of_none (h : run.targetAmong services x.name = none) :
    x.moved run catalog services = x := by
  rw [moved, h]

theorem ServiceState.moved_of_not_mem (h : x.name ∉ services) :
    x.moved run catalog services = x := moved_of_none (if_neg h)

theorem ServiceState.name_moved : (x.moved run catalog services).name = x.name := by
  cases h : run.targetAmong services x.name with
  | none => rw [moved_of_none h]
  | some target => rw [moved_of_some h]; rfl

namespace Store

theorem services_moved : (s.moved run catalog services).services =
    s.services.map (ServiceState.moved run catalog services) := services_recording _ _

theorem movedFrom_recording (s : Store) (moves : List Move) : MovedFrom s (s.recording moves) := by
  induction moves generalizing s with
  | nil => rfl
  | cons m rest ih => exact (movedFrom_recordComponentRepository _ _ _ _).trans (ih _)

/-- A move leaves everything but services and their repositories as it is. -/
theorem moved_eq : s.moved run catalog services =
    { s with
      services := s.services.map (ServiceState.moved run catalog services)
      componentRepositories := (s.moved run catalog services).componentRepositories
      uncopyable := (s.moved run catalog services).uncopyable } := by
  have pointed : MovedFrom s
      { s with services := s.services.map (ServiceState.moved run catalog services) } := rfl
  have only : MovedFrom s (s.moved run catalog services) := pointed.trans (movedFrom_recording _ _)
  rwa [MovedFrom, withServicesOf, services_moved] at only

theorem map_name_moved :
    (s.moved run catalog services).services.map (·.name) = s.services.map (·.name) := by
  rw [services_moved, List.map_map]
  exact List.map_congr_left fun x _ => x.name_moved

theorem service?_moved : (s.moved run catalog services).service? service =
    (s.service? service).map (·.moved run catalog services) := by
  rw [service?, services_moved, List.find?_map]
  congr 2
  funext x
  exact congrArg (fun name => decide (name = service)) x.name_moved

theorem canMove_moved :
    (s.moved run catalog services).CanMove run service ↔ s.CanMove run service := by
  unfold CanMove
  rw [map_name_moved]

/-- Other services do not change the moves of a service. -/
theorem movesOf_moved_of_not_mem (h : service ∉ services) :
    (s.moved run catalog services).movesOf run service = s.movesOf run service := by
  unfold movesOf
  rw [service?_moved]
  cases hx : s.service? service with
  | none => rfl
  | some x =>
    have named : x.name = service := by simpa using List.find?_some hx
    rw [Option.map_some, ServiceState.moved_of_not_mem (named ▸ h)]

namespace NamesDistinct

theorem exists_split (h : s.NamesDistinct) (mem : x ∈ s.services) : ∃ before later,
    s.services = before ++ x :: later ∧ (∀ y ∈ before, y.name ≠ x.name) ∧
      ∀ y ∈ later, y.name ≠ x.name := by
  obtain ⟨before, later, split⟩ := List.append_of_mem mem
  have distinct := h.services
  rw [split] at distinct
  exact ⟨before, later, split, names_ne_of_nodup distinct⟩

theorem service?_eq (h : s.NamesDistinct) (mem : x ∈ s.services) : s.service? x.name = some x :=
  find?_name_eq h.services mem

theorem moved (h : s.NamesDistinct) (run : UpgradeRun) (catalog : StackMetadata)
    (services : List String) : (s.moved run catalog services).NamesDistinct where
  services := by
    rw [map_name_moved]
    exact h.services
  components := by
    intro y hy
    rw [services_moved] at hy
    obtain ⟨x, mem, rfl⟩ := List.mem_map.1 hy
    have distinct := h.components x mem
    cases hx : run.targetAmong services x.name with
    | none => rwa [ServiceState.moved_of_none hx]
    | some target =>
      rw [ServiceState.moved_of_some hx]
      simpa [ServiceState.movedTo, ComponentState.movedTo, Function.comp_def] using distinct
  hosts := by
    intro y hy
    rw [services_moved] at hy
    obtain ⟨x, mem, rfl⟩ := List.mem_map.1 hy
    have distinct := h.hosts x mem
    cases hx : run.targetAmong services x.name with
    | none => rwa [ServiceState.moved_of_none hx]
    | some target =>
      rw [ServiceState.moved_of_some hx]
      intro d hd
      obtain ⟨c, hc, rfl⟩ := List.mem_map.1 hd
      simpa [ComponentState.movedTo, Function.comp_def, HostState.host_moved] using distinct c hc

end NamesDistinct

/-- Services that are moved one by one are moved together. -/
theorem moved_cons (fresh : service ∉ services) :
    (s.moved run catalog [service]).moved run catalog services =
      s.moved run catalog (service :: services) := by
  have each (x : ServiceState) : (x.moved run catalog [service]).moved run catalog services =
      x.moved run catalog (service :: services) := by
    by_cases named : x.name = service
    · have later : (x.moved run catalog [service]).name ∉ services := by
        rw [ServiceState.name_moved, named]
        exact fresh
      rw [ServiceState.moved_of_not_mem later]
      simp [ServiceState.moved, UpgradeRun.targetAmong, named]
    · have first : x.moved run catalog [service] = x :=
        ServiceState.moved_of_not_mem (by simpa using named)
      rw [first]
      simp [ServiceState.moved, UpgradeRun.targetAmong, named]
  have mapped : (s.moved run catalog [service]).services.map
      (ServiceState.moved run catalog services) =
        s.services.map (ServiceState.moved run catalog (service :: services)) := by
    rw [services_moved]
    exact List.map_map.trans (List.map_congr_left fun x _ => each x)
  have moves : services.flatMap ((s.moved run catalog [service]).movesOf run) =
      services.flatMap (s.movesOf run) := by
    refine List.flatMap_congr fun other mem => movesOf_moved_of_not_mem ?_
    exact fun same => fresh (List.mem_singleton.1 same ▸ mem)
  rw [moved, mapped, moves, moved, ← recording_withServices, List.flatMap_singleton,
    ← recording_append, moved, List.flatMap_cons]

end Store

theorem ComponentState.movedTo_movedTo (catalog : StackMetadata) (service : String)
    (target : RepositoryVersion) (c : ComponentState) :
    (c.movedTo catalog service target).movedTo catalog service target =
      c.movedTo catalog service target := by
  simp only [movedTo, List.map_map, Function.comp_def, HostState.moved_moved]

theorem ServiceState.moved_moved (x : ServiceState) :
    (x.moved run catalog services).moved run catalog services = x.moved run catalog services := by
  cases h : run.targetAmong services x.name with
  | none => rw [moved_of_none h, moved_of_none h]
  | some target =>
    have h' : run.targetAmong services (x.movedTo catalog target).name = some target := h
    rw [moved_of_some h, moved_of_some h']
    simp only [movedTo, List.map_map, Function.comp_def, ComponentState.movedTo_movedTo]

end Moved

/-! ## Recorded repositories -/

/-- The repository that is recorded for a component. -/
def repositoryIn (repositories : Record (Record RepositoryVersion)) (service component : String) :
    Option RepositoryVersion := (repositories.get? service).bind (·.get? component)

namespace Store

variable {s : Store} {moves : List Move} {m m' : Move} {service component : String}
  {target : RepositoryVersion}

/-- Whether repositories are recorded under the name of a service. -/
def lists (s : Store) (service : String) : Bool :=
  !Reserved.isInherited service || s.componentRepositories.has service

/-- The repositories that are recorded for a service. -/
def repositoriesOf (s : Store) (service : String) : Record RepositoryVersion :=
  (s.componentRepositories.get? service).getD Record.empty

/-- Whether the repository of a component is recorded. -/
def records (s : Store) (service component : String) : Bool :=
  s.lists service && Reserved.takes (s.repositoriesOf service) component

/-- What a move leaves recorded for a service. -/
theorem get?_recordMove : (s.recordMove m).componentRepositories.get? service =
    if service = m.service ∧ s.lists m.service = true then
      some (Reserved.write (s.repositoriesOf m.service) m.component.name m.target)
    else s.componentRepositories.get? service := by
  unfold recordMove recordComponentRepository
  dsimp only
  split
  · next h =>
    have unlisted : s.lists m.service = false := by
      simp_all [lists, Record.has, Reserved.isInherited]
    rw [if_neg fun both => Bool.false_ne_true (unlisted.symm.trans both.2)]
  · next h =>
    have listed : Reserved.takes s.componentRepositories m.service = s.lists m.service := by
      simp only [Reserved.takes, Reserved.isWritable, lists, Reserved.isInherited, Record.has]
      cases hs : s.componentRepositories.get? m.service <;> simp_all
    simp only [Reserved.get?_write, listed, repositoriesOf]

theorem lists_recordMove : (s.recordMove m).lists service = s.lists service := by
  unfold lists
  rw [Record.has, get?_recordMove]
  split
  · next h =>
    have listed : s.lists service = true := h.1 ▸ h.2
    rw [Option.isSome_some, Bool.or_true]
    exact listed.symm
  · rfl

theorem lists_recording : (s.recording moves).lists service = s.lists service := by
  induction moves generalizing s with
  | nil => rfl
  | cons m rest ih => exact ih.trans lists_recordMove

theorem takes_repositoriesOf_recordMove : Reserved.takes ((s.recordMove m).repositoriesOf service) =
    Reserved.takes (s.repositoriesOf service) := by
  unfold repositoriesOf
  rw [get?_recordMove]
  split
  · next h =>
    rw [Option.getD_some, Reserved.takes_write, h.1]
    rfl
  · rfl

/-- Moves do not change what is recorded. -/
theorem records_recordMove : (s.recordMove m).records service component =
    s.records service component := by
  unfold records
  rw [lists_recordMove, takes_repositoriesOf_recordMove]

theorem repositoryIn_recordMove :
    repositoryIn (s.recordMove m).componentRepositories service component =
      if (m.service = service ∧ m.component.name = component) ∧ s.records service component = true
      then some m.target else repositoryIn s.componentRepositories service component := by
  unfold repositoryIn
  rw [get?_recordMove]
  by_cases listed : service = m.service ∧ s.lists m.service = true
  · obtain ⟨rfl, listed⟩ := listed
    have before : (s.repositoriesOf m.service).get? component =
        (s.componentRepositories.get? m.service).bind (·.get? component) := by
      unfold repositoriesOf
      cases s.componentRepositories.get? m.service <;> rfl
    rw [if_pos ⟨rfl, listed⟩, Option.bind_some, Reserved.get?_write, before]
    by_cases named : component = m.component.name
    · subst named
      simp [records, listed]
    · rw [if_neg fun both => named both.1, if_neg fun both => named both.1.2.symm]
  · rw [if_neg listed, if_neg]
    rintro ⟨⟨rfl, -⟩, recorded⟩
    exact listed ⟨rfl, (Bool.and_eq_true_iff.1 recorded).1⟩

/-- A move whose repository is recorded already changes nothing. -/
theorem recordMove_eq_self
    (h : repositoryIn s.componentRepositories m.service m.component.name = some m.target) :
    s.recordMove m = s := by
  obtain ⟨components, hcomponents, hm⟩ := Option.bind_eq_some_iff.1 h
  have there : s.componentRepositories.has m.service = true := by simp [Record.has, hcomponents]
  have component : Reserved.write components m.component.name m.target = components := by
    rw [Reserved.write, Record.insert_eq_self hm, ite_self]
  have service : Reserved.write s.componentRepositories m.service components =
      s.componentRepositories := by
    rw [Reserved.write, Record.insert_eq_self hcomponents, ite_self]
  rw [recordMove, recordComponentRepository, hcomponents]
  simp only [Option.isNone_some, Bool.false_and, Bool.false_eq_true, if_false, Option.getD_some,
    component, service]

/-- A move whose repository cannot be recorded changes nothing once its service has a record. -/
theorem recordMove_eq_self_of_not_records (cannot : s.records m.service m.component.name = false)
    (plain : Reserved.isFunction m.service = true → s.componentRepositories.has m.service = true)
    (there : s.lists m.service = true → s.componentRepositories.has m.service = true) :
    s.recordMove m = s := by
  cases listed : s.lists m.service with
  | true =>
    obtain ⟨components, hcomponents⟩ := Record.has_iff.1 (there listed)
    have left : Reserved.takes components m.component.name = false := by
      simpa [records, listed, repositoriesOf, hcomponents] using cannot
    have service : Reserved.write s.componentRepositories m.service components =
        s.componentRepositories := by
      rw [Reserved.write, Record.insert_eq_self hcomponents, ite_self]
    rw [recordMove, recordComponentRepository, hcomponents]
    simp only [Option.isNone_some, Bool.false_and, Bool.false_eq_true, if_false, Option.getD_some,
      Reserved.write_of_not_takes left, service]
  | false =>
    have absent : s.componentRepositories.has m.service = false := by
      simp only [lists, Bool.or_eq_false_iff] at listed
      exact listed.2
    have unnamed : Reserved.isFunction m.service = false :=
      eq_false_of_ne_true fun function => by simp [absent] at plain; simp [plain] at function
    have reserved : Reserved.takes s.componentRepositories m.service = false := by
      simp_all [lists, Reserved.isInherited, Reserved.takes, Reserved.isWritable]
    rw [recordMove, recordComponentRepository, unnamed, Bool.and_false, if_neg Bool.false_ne_true]
    dsimp only
    rw [Reserved.write_of_not_takes reserved]

theorem recording_eq_self (h : ∀ m ∈ moves, s.recordMove m = s) : s.recording moves = s := by
  induction moves with
  | nil => rfl
  | cons m rest ih =>
    obtain ⟨first, others⟩ := List.forall_mem_cons.1 h
    rw [recording, List.foldl_cons, first]
    exact ih others

theorem records_recording :
    (s.recording moves).records service component = s.records service component := by
  induction moves generalizing s with
  | nil => rfl
  | cons m rest ih => exact ih.trans records_recordMove

theorem has_recordMove (h : s.componentRepositories.has service = true) :
    (s.recordMove m).componentRepositories.has service = true := by
  rw [Record.has, get?_recordMove]
  split
  · rfl
  · exact h

theorem has_recording (h : s.componentRepositories.has service = true) :
    (s.recording moves).componentRepositories.has service = true := by
  induction moves generalizing s with
  | nil => exact h
  | cons m rest ih => exact ih (has_recordMove h)

/-- A service that moves has a record afterwards, if there can be one under its name. -/
theorem has_recording_of_mem (mem : m ∈ moves) (listed : s.lists m.service = true) :
    (s.recording moves).componentRepositories.has m.service = true := by
  induction moves generalizing s with
  | nil => cases mem
  | cons m' rest ih =>
    rcases List.mem_cons.1 mem with rfl | later
    · have there : (s.recordMove m).componentRepositories.has m.service = true := by
        rw [Record.has, get?_recordMove, if_pos ⟨rfl, listed⟩]
        rfl
      show ((s.recordMove m).recording rest).componentRepositories.has m.service = true
      exact has_recording there
    · exact ih later (lists_recordMove.trans listed)

/-- Moves leave a store that can be copied unless a service without a record is named like a
function. -/
theorem uncopyable_recording : (s.recording moves).uncopyable = none ↔ s.uncopyable = none ∧
    ∀ m ∈ moves, Reserved.isFunction m.service = true →
      s.componentRepositories.has m.service = true := by
  induction moves generalizing s with
  | nil => simp [recording]
  | cons m rest ih =>
    have first : (s.recordMove m).uncopyable = none ↔ _ :=
      uncopyable_recordComponentRepository s m.service m.component.name m.target
    refine (ih : ((s.recordMove m).recording rest).uncopyable = none ↔ _).trans ?_
    rw [first, List.forall_mem_cons, and_assoc]
    refine and_congr_right fun _ => and_congr_right fun plain => forall₂_congr fun m' _ =>
      imp_congr_right fun function => ⟨fun there => ?_, has_recordMove⟩
    -- Only the record of the service that has moved can be new, and it is not.
    rw [Record.has, get?_recordMove] at there
    split at there
    · next same => exact same.1 ▸ plain (same.1 ▸ function)
    · exact there

theorem repositoryIn_recording_of_none
    (h : ∀ m ∈ moves, ¬ (m.service = service ∧ m.component.name = component)) :
    repositoryIn (s.recording moves).componentRepositories service component =
      repositoryIn s.componentRepositories service component := by
  induction moves generalizing s with
  | nil => rfl
  | cons m rest ih =>
    obtain ⟨first, others⟩ := List.forall_mem_cons.1 h
    refine (ih others).trans ?_
    rw [repositoryIn_recordMove, if_neg fun both => first both.1]

/-- A service that does not move keeps the record of its repositories. -/
theorem get?_recording_of_none (h : ∀ m ∈ moves, m.service ≠ service) :
    (s.recording moves).componentRepositories.get? service =
      s.componentRepositories.get? service := by
  induction moves generalizing s with
  | nil => rfl
  | cons m rest ih =>
    obtain ⟨first, others⟩ := List.forall_mem_cons.1 h
    refine (ih others).trans ?_
    rw [get?_recordMove, if_neg fun both => first both.1.symm]

/-- Moves of a service to one version record that version, if they are recorded. -/
theorem repositoryIn_recording_of_mem (can : s.records service component = true)
    (agree : ∀ m ∈ moves, m.service = service → m.target = target)
    (mem : ∃ m ∈ moves, m.service = service ∧ m.component.name = component) :
    repositoryIn (s.recording moves).componentRepositories service component = some target := by
  induction moves generalizing s with
  | nil => simp at mem
  | cons m rest ih =>
    obtain ⟨agree_first, agree⟩ := List.forall_mem_cons.1 agree
    by_cases later : ∃ m ∈ rest, m.service = service ∧ m.component.name = component
    · exact ih (records_recordMove.trans can) agree later
    · have this_one : m.service = service ∧ m.component.name = component := by
        obtain ⟨m', mem', found⟩ := mem
        rcases List.mem_cons.1 mem' with rfl | mem'
        · exact found
        · exact absurd ⟨m', mem', found⟩ later
      have none_later : ∀ m ∈ rest, ¬ (m.service = service ∧ m.component.name = component) :=
        fun m' mem' found => later ⟨m', mem', found⟩
      refine (repositoryIn_recording_of_none none_later).trans ?_
      rw [repositoryIn_recordMove, if_pos ⟨this_one, can⟩, agree_first this_one.1]

/-- What is recorded already can be recorded. -/
theorem records_of_repositoryIn
    (h : repositoryIn s.componentRepositories service component = some target) :
    s.records service component = true := by
  obtain ⟨components, hcomponents, hm⟩ := Option.bind_eq_some_iff.1 h
  have there : s.repositoriesOf service = components := by rw [repositoriesOf, hcomponents]; rfl
  simp [records, lists, Reserved.takes, Record.has, there, hcomponents, hm]

end Store

namespace Move

/-- The move of a component that has moved before. -/
def again (catalog : StackMetadata) (m : Move) : Move :=
  { m with component := m.component.movedTo catalog m.service m.target }

/-- It leaves all hosts as they are. -/
theorem hostsUpdated_again (catalog : StackMetadata) (m : Move) :
    ((m.again catalog).transition catalog).hostsUpdated = [] := by
  show ((m.component.hosts.map _).filter _).map _ = _
  rw [List.map_eq_nil_iff, List.filter_eq_nil_iff]
  intro h mem
  obtain ⟨h, -, rfl⟩ := List.mem_map.1 mem
  simp [again, ComponentState.movedTo, HostState.moved_moved]

end Move

namespace Store

variable {run : UpgradeRun} {catalog : StackMetadata} {services : List String} {service : String}
  {s : Store} {m : Move}

theorem mem_movesOf : m ∈ s.movesOf run service ↔ ∃ x target, s.service? service = some x ∧
    run.targets.get? service = some target ∧ ∃ c ∈ x.components, m = ⟨service, c, target⟩ := by
  unfold movesOf
  cases hx : s.service? service with
  | none => simp
  | some x =>
    have named : x.name = service := by simpa using List.find?_some hx
    cases run.targets.get? service with
    | none => simp
    | some target => simp [ServiceState.moves, named, eq_comm]

/-- All moves of a service go to its target. -/
theorem target_of_mem_moves (mem : m ∈ services.flatMap (s.movesOf run)) :
    m.service ∈ services ∧ run.targets.get? m.service = some m.target := by
  obtain ⟨service, hservice, mem⟩ := List.mem_flatMap.1 mem
  obtain ⟨x, target, -, hasTarget, c, -, rfl⟩ := mem_movesOf.1 mem
  exact ⟨hservice, hasTarget⟩

/-- The repositories of moved components are recorded, as far as they can be. -/
theorem repositoryIn_moved (mem : m ∈ services.flatMap (s.movesOf run)) :
    repositoryIn (s.moved run catalog services).componentRepositories m.service m.component.name =
      some m.target ↔ s.records m.service m.component.name = true := by
  constructor
  · intro recorded
    have recorded := records_of_repositoryIn recorded
    rwa [moved, records_recording] at recorded
  · intro can
    refine repositoryIn_recording_of_mem can (fun m' mem' same => ?_) ⟨m, mem, rfl, rfl⟩
    have targets := (target_of_mem_moves mem').2
    rw [same, (target_of_mem_moves mem).2] at targets
    exact (Option.some.inj targets).symm

theorem NamesDistinct.hosts_of_mem_moves (h : s.NamesDistinct)
    (mem : m ∈ services.flatMap (s.movesOf run)) : (m.component.hosts.map (·.host)).Nodup := by
  obtain ⟨service, -, mem⟩ := List.mem_flatMap.1 mem
  obtain ⟨x, target, hx, -, c, hc, rfl⟩ := mem_movesOf.1 mem
  exact h.hosts x (List.mem_of_find?_eq_some hx) c hc

/-- What moves again is where it has moved to. -/
theorem movesOf_moved_of_mem (h : service ∈ services) :
    (s.moved run catalog services).movesOf run service =
      (s.movesOf run service).map (Move.again catalog) := by
  unfold movesOf
  rw [service?_moved]
  cases hx : s.service? service with
  | none => rfl
  | some x =>
    have named : x.name = service := by simpa using List.find?_some hx
    rw [Option.map_some]
    cases hasTarget : run.targets.get? service with
    | none => rfl
    | some target =>
      have among : run.targetAmong services x.name = some target :=
        (if_pos (named ▸ h)).trans (named ▸ hasTarget)
      rw [ServiceState.moved_of_some among]
      simp [ServiceState.moves, ServiceState.movedTo, Move.again, Function.comp_def]

theorem moves_moved : services.flatMap ((s.moved run catalog services).movesOf run) =
    (services.flatMap (s.movesOf run)).map (Move.again catalog) := by
  rw [List.map_flatMap]
  exact List.flatMap_congr fun service mem => movesOf_moved_of_mem mem

/-- Where no record is of a service named like a function, moving again changes nothing. -/
theorem moved_moved (catalog : StackMetadata)
    (plain : ∀ m ∈ services.flatMap (s.movesOf run), Reserved.isFunction m.service = true →
      s.componentRepositories.has m.service = true) :
    (s.moved run catalog services).moved run catalog services = s.moved run catalog services := by
  have mapped : (s.moved run catalog services).services.map
      (ServiceState.moved run catalog services) = (s.moved run catalog services).services := by
    rw [services_moved]
    exact List.map_map.trans (List.map_congr_left fun x _ => x.moved_moved)
  have again : ∀ m ∈ (services.flatMap (s.movesOf run)).map (Move.again catalog),
      (s.moved run catalog services).recordMove m = s.moved run catalog services := by
    intro m' mem'
    obtain ⟨m, mem, rfl⟩ := List.mem_map.1 mem'
    by_cases can : s.records m.service m.component.name = true
    · exact recordMove_eq_self ((repositoryIn_moved mem).2 can)
    · refine recordMove_eq_self_of_not_records ?_ (fun function => ?_) fun listed => ?_
      · exact records_recording.trans (eq_false_of_ne_true can)
      · exact has_recording (plain m mem function)
      · rw [moved, lists_recording] at listed
        exact has_recording_of_mem (m := m) mem listed
  rw [← moves_moved] at again
  rw [moved, mapped]
  exact recording_eq_self again

end Store

end ClusterUpgrade
