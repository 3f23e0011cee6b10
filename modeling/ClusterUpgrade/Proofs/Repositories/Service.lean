import ClusterUpgrade.Proofs.Repositories.Component

/-!
# Moving a service to a version

A service moves by its name: it is pointed to its target version, and then its components are read
and moved one after the other. Where names tell the components apart, each has its place among those
that have moved and those that have not (`ServicePlace.component`), so the service ends as
`ServiceState.movedTo` where it stands (`eval_moveService`).
-/

namespace ClusterUpgrade

open Operation

/-! ## One service -/

/-- The place of a service in a store: what is put there is what a look-up by name finds. -/
structure ServicePlace (service : String) (put : ServiceState → Store) : Prop where
  change : ∀ x, x.name = service → ∀ f, (put x).updateService service f = (f x).map put
  read : ∀ x, x.name = service → (put x).componentsOf service = .ok x.components

/-- A service with other components. -/
def ServiceState.withComponents (x : ServiceState) (components : List ComponentState) :
    ServiceState := { x with components }

namespace ServicePlace

variable {service : String} {put : ServiceState → Store}

theorem recording (place : ServicePlace service put) (moves : List Move) :
    ServicePlace service fun x => (put x).recording moves where
  change := by
    intro x hx f
    rw [Store.updateService_recording, place.change x hx]
    cases f x <;> rfl
  read := by
    intro x hx
    have found := place.read x hx
    unfold Store.componentsOf Store.service? at found ⊢
    rw [Store.services_recording]
    split at found
    · cases found
    · exact found

/-- A component of the service has its place among the others. -/
theorem component (place : ServicePlace service put) {x : ServiceState} (named : x.name = service)
    {done : List ComponentState} {component : String} (fresh : ∀ d ∈ done, d.name ≠ component)
    (later : List ComponentState) : ComponentPlace service component
      fun c => put (x.withComponents (done ++ c :: later)) := by
  intro c hc f
  have changed := updateFirst_append ComponentState.name
    (StoreError.noComponent service component) fresh hc later f
  refine (place.change (x.withComponents (done ++ c :: later)) named _).trans ?_
  simp only [ServiceState.withComponents, changed]
  cases f c <;> rfl

end ServicePlace

/-- A service has its place behind services of other names. -/
theorem Store.servicePlace (s : Store) {service : String} {before : List ServiceState}
    (fresh : ∀ y ∈ before, y.name ≠ service) (later : List ServiceState) :
    ServicePlace service fun x => { s with services := before ++ x :: later } where
  change := by
    intro x hx f
    have changed := updateFirst_append ServiceState.name
      (StoreError.noService service s.clusterName) fresh hx later f
    simp only [Store.updateService, changed]
    cases f x <;> rfl
  read := by
    intro x hx
    have others : before.find? (·.name = service) = none := by
      simpa [List.find?_eq_none] using fresh
    simp [Store.componentsOf, Store.service?, List.find?_append, others, hx]

/-- A service after its move to a version. -/
def ServiceState.movedTo (catalog : StackMetadata) (target : RepositoryVersion) (x : ServiceState) :
    ServiceState where
  name := x.name
  clientOnly := x.clientOnly
  desiredRepository := some target
  components := x.components.map (·.movedTo catalog x.name target)

/-- The moves of the components of a service. -/
def ServiceState.moves (target : RepositoryVersion) (x : ServiceState) : List Move :=
  x.components.map fun c => ⟨x.name, c, target⟩

namespace Repositories

variable {run : UpgradeRun} (catalog : StackMetadata) (target : RepositoryVersion)
  {x : ServiceState} {put : ServiceState → Store}

theorem eval_version_target (run : UpgradeRun) (service : String) (s : Store) :
    eval (Transition.version run .target service) s =
      match run.targets.get? service with
      | some target => .ok (target, s)
      | none => .error (.missingVersion service .target) := by
  simp only [Transition.version]
  cases run.targets.get? service <;> rfl

/-- Moving components one after the other. -/
theorem eval_each_moveComponent (place : ServicePlace x.name put) (done rest : List ComponentState)
    (distinct : ((done ++ rest).map (·.name)).Nodup)
    (hosts : ∀ c ∈ rest, (c.hosts.map (·.host)).Nodup) :
    eval (Operation.each (moveComponent catalog x.name target) rest)
      (put (x.withComponents (done ++ rest))) =
        .ok (rest.map fun c => Move.transition catalog ⟨x.name, c, target⟩,
          (put (x.withComponents (done ++ rest.map (·.movedTo catalog x.name target)))).recording
            (rest.map fun c => ⟨x.name, c, target⟩)) := by
  induction rest generalizing done put with
  | nil => rfl
  | cons c rest ih =>
    obtain ⟨distinct_first, hosts⟩ := List.forall_mem_cons.1 hosts
    have fresh : ∀ d ∈ done, d.name ≠ c.name := (names_ne_of_nodup distinct).1
    have next : ((done ++ [c.movedTo catalog x.name target] ++ rest).map (·.name)).Nodup := by
      simpa [ComponentState.movedTo] using distinct
    have first := eval_moveComponent catalog target (place.component rfl fresh rest) distinct_first
    have others := ih (place.recording [⟨x.name, c, target⟩]) _ next hosts
    rw [List.append_assoc, List.append_assoc, List.singleton_append, List.singleton_append,
      ← Store.recording_append] at others
    rw [Operation.each, eval_bind_of_ok first, eval_bind_of_ok others]
    rfl

/-- A service is moved where it stands. -/
theorem eval_moveService (place : ServicePlace x.name put)
    (hasTarget : run.targets.get? x.name = some target)
    (distinct : (x.components.map (·.name)).Nodup)
    (hosts : ∀ c ∈ x.components, (c.hosts.map (·.host)).Nodup) :
    eval (moveService run catalog x.name) (put x) =
      .ok ((x.moves target).map (Move.transition catalog),
        (put (x.movedTo catalog target)).recording (x.moves target)) := by
  let pointed : ServiceState := { x with desiredRepository := some target }
  have version : eval (Transition.version run .target x.name) (put x) = .ok (target, put x) := by
    rw [eval_version_target, hasTarget]
  have set : (put x).setServiceRepository x.name target = .ok (put pointed) :=
    place.change x rfl _
  have read : eval (Transition.reading (·.componentsOf x.name)) (put pointed) =
      .ok (x.components, put pointed) := by
    rw [Transition.reading, eval_reading, place.read pointed rfl]
    rfl
  rw [moveService, eval_bind_of_ok version, eval_bind_of_ok (Transition.eval_writing_of_ok set),
    eval_bind_of_ok read]
  have moved := eval_each_moveComponent catalog target (x := pointed) place [] x.components distinct
    hosts
  refine moved.trans ?_
  rw [ServiceState.moves, List.map_map]
  rfl

end Repositories

end ClusterUpgrade
