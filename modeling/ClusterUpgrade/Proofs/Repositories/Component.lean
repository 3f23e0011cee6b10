import ClusterUpgrade.Config.Repositories
import ClusterUpgrade.Proofs.Names
import ClusterUpgrade.Proofs.Operation

/-!
# Moving a component to a version

What the move does to one component: it goes to the target version, and each of its hosts is marked
(`ComponentState.movedTo`). The writes go host by host, through the names of service, component and
host. Where names tell these apart, each write finds the host that it is meant for
(`eval_markHost`); so after each step the hosts before are marked and the hosts behind are as they
were (`eval_each_markHost`). The hosts that are reported are those that differ afterwards
(`updatedHosts_eq`).
-/

namespace ClusterUpgrade

open Operation

theorem Transition.eval_writing_of_ok {f : Store → Except StoreError Store} {s s' : Store}
    (h : f s = .ok s') : eval (Transition.writing f) s = .ok ((), s') := by
  rw [Transition.writing, eval_writing, h]
  rfl

/-! ## Writes in a place -/

/-- The place of a component in a store: what is put there is what a change by name finds. -/
def ComponentPlace (service component : String) (put : ComponentState → Store) : Prop :=
  ∀ c, c.name = component → ∀ f, (put c).updateComponent service component f = (f c).map put

/-- A component with other hosts. -/
def ComponentState.withHosts (c : ComponentState) (hosts : List HostState) : ComponentState :=
  { c with hosts }

section Hosts

variable {service : String} {c : ComponentState} {put : ComponentState → Store}
  (place : ComponentPlace service c.name put) {done : List HostState} {h : HostState}

include place

/-- A host is changed where it stands, if no host before it has its name. -/
theorem ComponentPlace.updateHost (fresh : ∀ d ∈ done, d.host ≠ h.host) (later : List HostState)
    (f : HostState → HostState) :
    (put (c.withHosts (done ++ h :: later))).updateHost service c.name h.host f =
      .ok (put (c.withHosts (done ++ f h :: later))) := by
  refine (place (c.withHosts (done ++ h :: later)) rfl _).trans ?_
  have changed := updateFirst_append HostState.host (StoreError.noHost service c.name h.host) fresh
    rfl later fun d => .ok (f d)
  simp only [ComponentState.withHosts, changed, Except.map]

/-- A change of a host, if it is due. -/
theorem ComponentPlace.eval_when_updateHost (fresh : ∀ d ∈ done, d.host ≠ h.host)
    (later : List HostState) (due : Bool) (f : HostState → HostState) :
    eval (Operation.when due (Transition.writing (·.updateHost service c.name h.host f)))
      (put (c.withHosts (done ++ h :: later))) =
        .ok ((), put (c.withHosts (done ++ (if due then f h else h) :: later))) := by
  cases due with
  | true => exact Transition.eval_writing_of_ok (place.updateHost fresh later f)
  | false => rfl

end Hosts

/-! ## Marking hosts -/

/-- The mark that a move leaves on the hosts of a component. -/
def markedState (advertised : Bool) : UpgradeState := if advertised then .inProgress else .none

/-- A host after the move. If its component reports a version of its own, the host is in progress
and keeps its version; if not, it is not upgraded, and its version is unknown. -/
def HostState.moved (advertised : Bool) (h : HostState) : HostState :=
  if advertised then { h with state := .inProgress }
  else { h with state := .none, version := unknownVersion }

theorem HostState.moved_moved (advertised : Bool) (h : HostState) :
    (h.moved advertised).moved advertised = h.moved advertised := by
  cases advertised <;> rfl

theorem HostState.host_moved (advertised : Bool) (h : HostState) :
    (h.moved advertised).host = h.host := by
  cases advertised <;> rfl

/-- A host is the same afterwards if neither its state nor its version is written. -/
theorem HostState.moved_eq_iff {advertised : Bool} {h : HostState} : h.moved advertised = h ↔
    h.state = markedState advertised ∧ Repositories.losesVersion advertised h = false := by
  obtain ⟨host, state, version⟩ := h
  cases advertised with
  | true =>
    have marked : moved true ⟨host, state, version⟩ = ⟨host, .inProgress, version⟩ := rfl
    rw [marked, HostState.mk.injEq]
    exact ⟨fun same => ⟨same.2.1.symm, rfl⟩, fun same => ⟨rfl, same.1.symm, rfl⟩⟩
  | false =>
    have marked : moved false ⟨host, state, version⟩ = ⟨host, .none, unknownVersion⟩ := rfl
    have kept : Repositories.losesVersion false ⟨host, state, version⟩ = false ↔
        version = unknownVersion := bne_eq_false_iff_eq
    rw [marked, HostState.mk.injEq, kept]
    exact ⟨fun same => ⟨same.2.1.symm, same.2.2.symm⟩, fun same => ⟨rfl, same.1.symm, same.2.symm⟩⟩

/-- A mark is a new state, and an unknown version where the old one is lost. -/
theorem HostState.moved_eq (advertised : Bool) (h : HostState) :
    let marked : HostState := { h with state := markedState advertised }
    h.moved advertised = if Repositories.losesVersion advertised h then
      { marked with version := unknownVersion } else marked := by
  cases advertised with
  | true => rfl
  | false =>
    by_cases unknown : h.version = unknownVersion
    · have kept : Repositories.losesVersion false h = false := by
        simp [Repositories.losesVersion, unknown]
      rw [kept, moved, ← unknown]
      rfl
    · have lost : Repositories.losesVersion false h = true := by
        simp [Repositories.losesVersion, unknown]
      rw [lost]
      rfl

namespace Repositories

variable {service : String} {c : ComponentState} {put : ComponentState → Store} {advertised : Bool}

/-- Marking a host where it stands. -/
theorem eval_markHost (place : ComponentPlace service c.name put) {done : List HostState}
    {h : HostState} (fresh : ∀ d ∈ done, d.host ≠ h.host) (later : List HostState) :
    eval (markHost service c.name advertised (markedState advertised) h)
      (put (c.withHosts (done ++ h :: later))) =
        .ok ((), put (c.withHosts (done ++ h.moved advertised :: later))) := by
  have first := place.eval_when_updateHost fresh later (decide (h.state ≠ markedState advertised))
    fun d => { d with state := markedState advertised }
  have state_set : (if decide (h.state ≠ markedState advertised) then
      { h with state := markedState advertised } else h) =
        { h with state := markedState advertised } := by
    by_cases same : h.state = markedState advertised
    · rw [← same, if_neg (by simp)]
    · exact if_pos (decide_eq_true same)
  rw [state_set] at first
  have second := place.eval_when_updateHost (h := { h with state := markedState advertised }) fresh
    later (losesVersion advertised h) fun d => { d with version := unknownVersion }
  rw [h.moved_eq, markHost]
  exact (eval_bind_of_ok first).trans second

/-- Marking hosts one after the other. -/
theorem eval_each_markHost (place : ComponentPlace service c.name put) (advertised : Bool)
    (done rest : List HostState)
    (distinct : ((done ++ rest).map (·.host)).Nodup) :
    ∃ us, eval (Operation.each (markHost service c.name advertised (markedState advertised)) rest)
      (put (c.withHosts (done ++ rest))) =
        .ok (us, put (c.withHosts (done ++ rest.map (·.moved advertised)))) := by
  induction rest generalizing done with
  | nil => exact ⟨[], rfl⟩
  | cons h rest ih =>
    have fresh : ∀ d ∈ done, d.host ≠ h.host := (names_ne_of_nodup distinct).1
    have next : ((done ++ [h.moved advertised] ++ rest).map (·.host)).Nodup := by
      simpa [HostState.host_moved] using distinct
    obtain ⟨us, others⟩ := ih _ next
    rw [List.append_assoc, List.append_assoc, List.singleton_append,
      List.singleton_append] at others
    refine ⟨() :: us, ?_⟩
    rw [Operation.each, eval_bind_of_ok (eval_markHost place fresh rest), eval_bind_of_ok others]
    rfl

/-- The hosts that are reported are those that differ afterwards. -/
theorem updatedHosts_eq {hosts : List HostState} (distinct : (hosts.map (·.host)).Nodup) :
    updatedHosts hosts advertised (markedState advertised) =
      (hosts.filter fun h => h.moved advertised ≠ h).map (·.host) := by
  have reported (acc : List String) (fresh : ∀ h ∈ hosts, h.host ∉ acc) :
      hosts.foldl
        (fun updated h =>
          let updated := if h.state ≠ markedState advertised then updated ++ [h.host] else updated
          if losesVersion advertised h then addDistinct updated h.host else updated) acc =
        acc ++ (hosts.filter fun h => h.moved advertised ≠ h).map (·.host) := by
    induction hosts generalizing acc with
    | nil => exact (List.append_nil acc).symm
    | cons h rest ih =>
      obtain ⟨first, distinct⟩ := List.nodup_cons.1 distinct
      obtain ⟨new, fresh⟩ := List.forall_mem_cons.1 fresh
      have later : ∀ d ∈ rest, d.host ∉ acc ++ [h.host] := by
        intro d mem
        rw [List.mem_append, List.mem_singleton, not_or]
        exact ⟨fresh d mem, fun same => first (List.mem_map.2 ⟨d, mem, same⟩)⟩
      rw [List.foldl_cons]
      by_cases same : h.moved advertised = h
      · rw [List.filter_cons_of_neg (by simp [same])]
        obtain ⟨state, version⟩ := HostState.moved_eq_iff.1 same
        simp only [state, ne_eq, not_true_eq_false, if_false, version, Bool.false_eq_true]
        exact ih distinct acc fresh
      · have split := ih distinct _ later
        rw [List.append_assoc, List.singleton_append] at split
        rw [List.filter_cons_of_pos (by simp [same]), List.map_cons, ← split]
        congr 1
        rw [HostState.moved_eq_iff, not_and_or] at same
        by_cases state : h.state = markedState advertised
        · have lost : losesVersion advertised h = true := by simpa [state] using same
          simp [state, lost, addDistinct, new]
        · simp [state, addDistinct]
  exact reported [] fun _ _ => List.not_mem_nil

end Repositories

/-! ## Moving a component -/

/-- Whether a component reports a version of its own. One that the catalog does not know reports
none. -/
def StackMetadata.reportsVersion (catalog : StackMetadata) (stack : StackId)
    (service component : String) : Bool :=
  match catalog.advertises stack service component with
  | .ok b => b
  | .error _ => false

/-- A component after the move of its service to a version. -/
def ComponentState.movedTo (catalog : StackMetadata) (service : String)
    (target : RepositoryVersion) (c : ComponentState) : ComponentState where
  name := c.name
  desiredVersion := some target.version
  hosts := c.hosts.map (·.moved (catalog.reportsVersion target.stackId service c.name))

/-- A component of a service, as it is before the move, and the version that it goes to. -/
structure Move where
  service : String
  component : ComponentState
  target : RepositoryVersion

namespace Move

/-- What is reported of a move. Its hosts are those that differ afterwards. -/
def transition (catalog : StackMetadata) (m : Move) : ComponentTransition :=
  let advertised := catalog.reportsVersion m.target.stackId m.service m.component.name
  { service := m.service, component := m.component.name, version := m.target.version
    state := markedState advertised
    hostsUpdated := (m.component.hosts.filter fun h => h.moved advertised ≠ h).map (·.host) }

end Move

namespace Store

/-- A store with the repository of a move. -/
def recordMove (s : Store) (m : Move) : Store :=
  s.recordComponentRepository m.service m.component.name m.target

/-- A store with the repositories of some moves. -/
def recording (s : Store) (moves : List Move) : Store := moves.foldl recordMove s

theorem recording_append (s : Store) (moves moves' : List Move) :
    s.recording (moves ++ moves') = (s.recording moves).recording moves' := List.foldl_append

theorem recording_withServices (s : Store) (services : List ServiceState) (moves : List Move) :
    ({ s with services } : Store).recording moves = { s.recording moves with services } := by
  induction moves generalizing s with
  | nil => rfl
  | cons m rest ih =>
    rw [recording, List.foldl_cons, recordMove, recordComponentRepository_withServices]
    exact ih _

theorem services_recording (s : Store) (moves : List Move) :
    (s.recording moves).services = s.services := by
  induction moves generalizing s with
  | nil => rfl
  | cons m rest ih => exact (ih _).trans (services_recordComponentRepository _ _ _ _)

theorem updateService_recording (s : Store) (moves : List Move) (service : String)
    (f : ServiceState → Except StoreError ServiceState) :
    (s.recording moves).updateService service f =
      (s.updateService service f).map (·.recording moves) := by
  induction moves generalizing s with
  | nil =>
    show s.updateService service f = _
    cases s.updateService service f <;> rfl
  | cons m rest ih =>
    refine (ih _).trans ?_
    rw [recordMove, updateService_recordComponentRepository]
    cases s.updateService service f <;> rfl

end Store

/-- A place is still there when repositories are recorded. -/
theorem ComponentPlace.recording {service component : String} {put : ComponentState → Store}
    (place : ComponentPlace service component put) (moves : List Move) :
    ComponentPlace service component fun c => (put c).recording moves := by
  intro c hc f
  have changed := place c hc f
  unfold Store.updateComponent at changed ⊢
  rw [Store.updateService_recording, changed]
  cases f c <;> rfl

namespace Repositories

variable {service : String} {c : ComponentState} {put : ComponentState → Store}
  (catalog : StackMetadata) (target : RepositoryVersion)

theorem eval_advertises (stack : StackId) (component : String) (s : Store) :
    eval (advertises catalog stack service component) s =
      .ok (catalog.reportsVersion stack service component, s) := by
  unfold advertises StackMetadata.reportsVersion
  cases catalog.advertises stack service component <;> rfl

/-- A component is moved where it stands. -/
theorem eval_moveComponent (place : ComponentPlace service c.name put)
    (distinct : (c.hosts.map (·.host)).Nodup) :
    eval (moveComponent catalog service target c) (put c) =
      .ok (Move.transition catalog ⟨service, c, target⟩,
        (put (c.movedTo catalog service target)).recording [⟨service, c, target⟩]) := by
  let pointed : ComponentState := { c with desiredVersion := some target.version }
  have recorded : (put c).setComponentRepository service c.name target =
      .ok ((put pointed).recording [⟨service, c, target⟩]) := by
    rw [Store.setComponentRepository, place c rfl]
    rfl
  have place' : ComponentPlace service pointed.name
      fun c' => (put c').recording [⟨service, c, target⟩] := place.recording _
  obtain ⟨us, marked⟩ := eval_each_markHost place'
    (catalog.reportsVersion target.stackId service c.name) [] c.hosts distinct
  rw [moveComponent, eval_bind_of_ok (Transition.eval_writing_of_ok recorded),
    eval_bind_of_ok (eval_advertises _ _ _ _)]
  refine (eval_bind_of_ok marked).trans ?_
  rw [eval_pure, Move.transition, ← updatedHosts_eq distinct]
  rfl

end Repositories

end ClusterUpgrade
