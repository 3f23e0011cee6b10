import ClusterUpgrade.Proofs.Operation
import ClusterUpgrade.Proofs.Reserved
import ClusterUpgrade.Store.Script

/-!
# Requests in single steps

A store is written in place. A request looks up what it is about, one name after the other, and then
makes its assignments one by one; nothing takes an assignment back. `Request.inSteps` is every
request in these steps. It comes to what the request comes to at once (`inSteps_eq`), and a request
that fails does so before its first assignment (`store_inSteps_of_error`).
-/

namespace ClusterUpgrade

/-! ## Places -/

section Places

variable {α ε : Type} {p : α → Bool} (missing : ε) {xs : List α} {i : Nat}

theorem updateFirst_of_none (h : xs.findIdx? p = none) (f : α → Except ε α) :
    updateFirst p missing f xs = .error missing := by
  induction xs with
  | nil => rfl
  | cons a rest ih =>
    rw [List.findIdx?_cons] at h
    unfold updateFirst
    cases ha : p a with
    | true =>
      rw [ha, if_pos rfl] at h
      cases h
    | false =>
      rw [ha, if_neg Bool.false_ne_true, Option.map_eq_none_iff] at h
      rw [if_neg Bool.false_ne_true, ih h]
      rfl

/-- The first item with a property is the one that is changed, in its place. -/
theorem updateFirst_of_some (h : xs.findIdx? p = some i) : ∃ a, xs[i]? = some a ∧
    xs.find? p = some a ∧ (∀ f e, f a = .error e → updateFirst p missing f xs = .error e) ∧
    ∀ f g, f a = .ok (g a) → updateFirst p missing f xs = .ok (xs.modify i g) := by
  induction xs generalizing i with
  | nil => cases h
  | cons a rest ih =>
    rw [List.findIdx?_cons] at h
    unfold updateFirst
    cases ha : p a with
    | true =>
      rw [ha, if_pos rfl] at h
      obtain rfl := Option.some.inj h
      refine ⟨a, rfl, List.find?_cons_of_pos ha, ?_, ?_⟩
      · intro f e hf
        rw [if_pos rfl, hf]
        rfl
      · intro f g hf
        rw [if_pos rfl, hf]
        rfl
    | false =>
      rw [ha, if_neg Bool.false_ne_true] at h
      obtain ⟨j, hj, rfl⟩ := Option.map_eq_some_iff.1 h
      obtain ⟨b, hb, first, fails, changes⟩ := ih hj
      refine ⟨b, hb, (List.find?_cons_of_neg (by simp [ha])).trans first, ?_, ?_⟩
      · intro f e hf
        rw [if_neg Bool.false_ne_true, fails f e hf]
        rfl
      · intro f g hf
        rw [if_neg Bool.false_ne_true, changes f g hf]
        rfl

end Places

namespace Store

/-- The components of the service in a place. -/
def componentsAt (s : Store) (i : Nat) : List ComponentState :=
  (s.services[i]?).elim [] (·.components)

/-- The hosts of the component in a place. -/
def hostsAt (s : Store) (i j : Nat) : List HostState := ((s.componentsAt i)[j]?).elim [] (·.hosts)

def modifyService (s : Store) (i : Nat) (f : ServiceState → ServiceState) : Store :=
  { s with services := s.services.modify i f }

def modifyComponent (s : Store) (i j : Nat) (f : ComponentState → ComponentState) : Store :=
  s.modifyService i fun x => { x with components := x.components.modify j f }

def modifyHost (s : Store) (i j k : Nat) (f : HostState → HostState) : Store :=
  s.modifyComponent i j fun c => { c with hosts := c.hosts.modify k f }

end Store

/-! ## Steps -/

namespace Operation

variable {ε α β : Type}

/-- A single assignment. It stays, whatever comes after it. -/
def assign (f : Store → Store) : Operation ε Unit := fun s => ⟨f s, [], .ok ()⟩

/-- Steps that only assign, over a list. -/
theorem run_each_of_assign {f : α → Operation ε Unit} {g : Store → α → Store}
    (h : ∀ a s, run (f a) s = ⟨g s a, [], .ok ()⟩) (as : List α) (s : Store) :
    run (each f as) s = ⟨as.foldl g s, [], .ok (as.map fun _ => ())⟩ := by
  induction as generalizing s with
  | nil => rfl
  | cons a rest ih =>
    rw [each, run_bind_of_silent (h a s), run_bind_of_silent (ih (g s a))]
    rfl

end Operation

namespace Request

open Operation

/-- The place of the first item with a property. -/
def place {α : Type} (p : α → Bool) (items : Store → List α) (missing : Store → StoreError) :
    Operation StoreError Nat :=
  reading fun s => match (items s).findIdx? p with
    | some i => .ok i
    | none => .error (missing s)

def serviceAt (service : String) : Operation StoreError Nat :=
  place (·.name = service) (·.services) fun s => .noService service s.clusterName

def componentAt (service component : String) : Operation StoreError (Nat × Nat) := do
  let i ← serviceAt service
  let j ← place (·.name = component) (·.componentsAt i) fun _ => .noComponent service component
  return (i, j)

def hostAt (service component host : String) : Operation StoreError (Nat × Nat × Nat) := do
  let (i, j) ← componentAt service component
  let k ← place (·.host = host) (·.hostsAt i j) fun _ => .noHost service component host
  return (i, j, k)

/-- Finds a host and changes it in its place. -/
def changeHost (service component host : String) (f : HostState → HostState) :
    Operation StoreError Answer := do
  let (i, j, k) ← hostAt service component host
  assign (·.modifyHost i j k f)
  return .done

/-- Takes a type of a service away, unless it is among the latest ones. -/
def dropOutdated (service : String) (latest : Record Number) (type : String) :
    Operation StoreError Unit := do
  let owned ← look (·.ownedBy service type)
  «when» (owned && !latest.has type) (assign fun s => { s with current := s.current.erase type })

/-- Makes a version of a type current. -/
def makeCurrent (e : String × Number) : Operation StoreError Unit :=
  assign fun s => { s with current := Reserved.write s.current e.1 e.2 }

/-- Adds a revision at the end and makes its version current. -/
def pushRevision (stack : StackId) (service actor comment : String) (e : String × Properties) :
    Operation StoreError Unit := do
  let version ← look (·.nextVersion)
  let revision : Revision :=
    { type := e.1, service, stack := stack.text, tag := "version" ++ version.text, version
      properties := e.2, actor := some actor, comment := some comment }
  assign fun s => { s with revisions := s.revisions ++ [revision] }
  makeCurrent (e.1, version)

/-- A request in single steps. -/
def inSteps : Request → Operation StoreError Answer
  | .applyLatest stack service => do
    let latest ← look (·.latestVersions stack service)
    if latest.entries.isEmpty then fail (.noRevisions service stack.text)
    else do
      let types ← look (·.current.keys)
      let _ ← each (dropOutdated service latest) types
      let _ ← each makeCurrent latest.entries
      return .done
  | .create stack service configs actor comment => do
    let _ ← each (pushRevision stack service actor comment) configs.entries
    return .done
  | .setServiceRepository service version => do
    let i ← serviceAt service
    assign (·.modifyService i fun x => { x with desiredRepository := some version })
    return .done
  | .setComponentRepository service component version => do
    let (i, j) ← componentAt service component
    assign (·.modifyComponent i j fun c => { c with desiredVersion := some version.version })
    assign (·.recordComponentRepository service component version)
    return .done
  | .setHostState service component host state =>
    changeHost service component host fun h => { h with state }
  | .setHostVersion service component host version =>
    changeHost service component host fun h => { h with version }
  | .components service => do
    let i ← serviceAt service
    look fun s => .components (s.componentsAt i)
  | r => r.operation

/-! ## Look-ups -/

variable {s : Store} {service component host : String}

theorem run_place {α : Type} (p : α → Bool) (items : Store → List α) (missing : Store → StoreError) :
    run (place p items missing) s = ⟨s, [], match (items s).findIdx? p with
      | some i => .ok i
      | none => .error (missing s)⟩ := rfl

/-- A service is found where it is changed, or a change of it fails as the look-up does. -/
theorem serviceAt_spec (service : String) (s : Store) :
    (∃ e, run (serviceAt service) s = ⟨s, [], .error e⟩ ∧
      (∀ f, s.updateService service f = .error e) ∧ s.componentsOf service = .error e) ∨
    ∃ i x, run (serviceAt service) s = ⟨s, [], .ok i⟩ ∧ s.services[i]? = some x ∧
      (∀ f e, f x = .error e → s.updateService service f = .error e) ∧
      (∀ f g, f x = .ok (g x) → s.updateService service f = .ok (s.modifyService i g)) ∧
      s.componentsOf service = .ok x.components := by
  rw [serviceAt, run_place]
  cases h : s.services.findIdx? (·.name = service) with
  | none =>
    refine Or.inl ⟨_, rfl, ?_, ?_⟩
    · intro f
      rw [Store.updateService, updateFirst_of_none _ h]
      rfl
    · have absent : s.service? service = none := by
        rw [Store.service?, List.find?_eq_none]
        intro x mem
        simp [List.findIdx?_eq_none_iff.1 h x mem]
      rw [Store.componentsOf, absent]
  | some i =>
    obtain ⟨x, hx, first, fails, changes⟩ :=
      updateFirst_of_some (StoreError.noService service s.clusterName) h
    refine Or.inr ⟨i, x, rfl, hx, ?_, ?_, ?_⟩
    · intro f e hf
      rw [Store.updateService, fails f e hf]
      rfl
    · intro f g hf
      rw [Store.updateService, changes f g hf]
      rfl
    · rw [Store.componentsOf, Store.service?, first]

theorem componentsAt_eq {i : Nat} {x : ServiceState} (h : s.services[i]? = some x) :
    s.componentsAt i = x.components := by
  rw [Store.componentsAt, h]
  rfl

theorem hostsAt_eq {i j : Nat} {c : ComponentState} (h : (s.componentsAt i)[j]? = some c) :
    s.hostsAt i j = c.hosts := by
  rw [Store.hostsAt, h]
  rfl

theorem componentAt_spec (service component : String) (s : Store) :
    (∃ e, run (componentAt service component) s = ⟨s, [], .error e⟩ ∧
      ∀ f, s.updateComponent service component f = .error e) ∨
    ∃ i j c, run (componentAt service component) s = ⟨s, [], .ok (i, j)⟩ ∧
      (s.componentsAt i)[j]? = some c ∧
      (∀ f e, f c = .error e → s.updateComponent service component f = .error e) ∧
      ∀ f g, f c = .ok (g c) →
        s.updateComponent service component f = .ok (s.modifyComponent i j g) := by
  rcases serviceAt_spec service s with ⟨e, hrun, fails, -⟩ | ⟨i, x, hrun, hx, fails, changes, -⟩
  · refine Or.inl ⟨e, ?_, fun f => fails _⟩
    rw [componentAt, run_bind, hrun]
    rfl
  · have hlook : run (componentAt service component) s =
        ⟨s, [], (match x.components.findIdx? (·.name = component) with
          | some j => .ok (i, j)
          | none => .error (.noComponent service component))⟩ := by
      rw [componentAt, run_bind, hrun]
      show after (run (place _ _ _) s) _ = _
      rw [run_place, componentsAt_eq hx]
      cases x.components.findIdx? (·.name = component) <;> rfl
    rw [hlook]
    cases h : x.components.findIdx? (·.name = component) with
    | none =>
      refine Or.inl ⟨_, rfl, ?_⟩
      intro f
      apply fails
      rw [updateFirst_of_none _ h]
      rfl
    | some j =>
      obtain ⟨c, hc, -, cfails, cchanges⟩ :=
        updateFirst_of_some (StoreError.noComponent service component) h
      refine Or.inr ⟨i, j, c, rfl, by rwa [componentsAt_eq hx], ?_, ?_⟩
      · intro f e hf
        apply fails
        rw [cfails f e hf]
        rfl
      · intro f g hf
        apply changes _ fun x => { x with components := x.components.modify j g }
        rw [cchanges f g hf]
        rfl

theorem hostAt_spec (service component host : String) (s : Store) :
    (∃ e, run (hostAt service component host) s = ⟨s, [], .error e⟩ ∧
      ∀ f, s.updateHost service component host f = .error e) ∨
    ∃ i j k, run (hostAt service component host) s = ⟨s, [], .ok (i, j, k)⟩ ∧
      ∀ f, s.updateHost service component host f = .ok (s.modifyHost i j k f) := by
  rcases componentAt_spec service component s with
    ⟨e, hrun, fails⟩ | ⟨i, j, c, hrun, hc, fails, changes⟩
  · refine Or.inl ⟨e, ?_, fun f => fails _⟩
    rw [hostAt, run_bind, hrun]
    rfl
  · have hlook : run (hostAt service component host) s =
        ⟨s, [], (match c.hosts.findIdx? (·.host = host) with
          | some k => .ok (i, j, k)
          | none => .error (.noHost service component host))⟩ := by
      rw [hostAt, run_bind, hrun]
      show after (run (place _ _ _) s) _ = _
      rw [run_place, hostsAt_eq hc]
      cases c.hosts.findIdx? (·.host = host) <;> rfl
    rw [hlook]
    cases h : c.hosts.findIdx? (·.host = host) with
    | none =>
      refine Or.inl ⟨_, rfl, ?_⟩
      intro f
      apply fails
      rw [updateFirst_of_none _ h]
      rfl
    | some k =>
      obtain ⟨y, -, -, -, hchanges⟩ :=
        updateFirst_of_some (StoreError.noHost service component host) h
      refine Or.inr ⟨i, j, k, rfl, ?_⟩
      intro f
      apply changes _ fun c => { c with hosts := c.hosts.modify k f }
      rw [hchanges _ f rfl]
      rfl

/-! ## Loops -/

/-- What dropping a type comes to. -/
def dropped (service : String) (latest : Record Number) (s : Store) (type : String) : Store :=
  if s.ownedBy service type && !latest.has type then { s with current := s.current.erase type } else s

theorem run_dropOutdated (service : String) (latest : Record Number) (type : String) (s : Store) :
    run (dropOutdated service latest type) s = ⟨dropped service latest s type, [], .ok ()⟩ := by
  have owned : run (look (·.ownedBy service type) : Operation StoreError Bool) s =
      ⟨s, [], .ok (s.ownedBy service type)⟩ := rfl
  rw [dropOutdated, run_bind, owned, dropped]
  cases h : s.ownedBy service type && !latest.has type with
  | true => simp [after, h, «when», assign]
  | false => simp [after, h, «when», Pure.pure]

theorem ownedBy_erase {t type : String} (differs : t ≠ type) :
    Store.ownedBy { s with current := s.current.erase type } service t = s.ownedBy service t := by
  unfold Store.ownedBy Store.currentRevision?
  rw [Record.get?_erase, if_neg differs]
  rfl

/-- Types that are dropped one by one are the ones that are dropped at once. -/
theorem foldl_dropped (latest : Record Number) {types : List String} (distinct : types.Nodup)
    (s : Store) : types.foldl (dropped service latest) s =
      { s with current := s.current.filterKeys fun type =>
          !(decide (type ∈ types) && (s.ownedBy service type && !latest.has type)) } := by
  induction types generalizing s with
  | nil =>
    refine congrArg (fun current => ({ s with current } : Store)) (Eq.symm ?_)
    exact Record.filterKeys_eq_self fun _ _ => rfl
  | cons type rest ih =>
    rw [List.nodup_cons] at distinct
    rw [List.foldl_cons, ih distinct.2, dropped]
    cases h : s.ownedBy service type && !latest.has type with
    | true =>
      rw [if_pos rfl]
      refine congrArg (fun current => ({ s with current } : Store)) (Record.eq_of_entries_eq ?_)
      refine List.filter_filter.trans (List.filter_congr ?_)
      intro e _
      by_cases htype : e.1 = type
      · simp [htype, h]
      · have owned : _ = s.ownedBy service e.1 := ownedBy_erase htype
        simp [htype, owned]
    | false =>
      rw [if_neg Bool.false_ne_true]
      refine congrArg (fun current => ({ s with current } : Store)) (Record.eq_of_entries_eq ?_)
      refine List.filter_congr ?_
      intro e _
      by_cases htype : e.1 = type
      · simp [htype, distinct.1, h]
      · simp [htype]

theorem run_makeCurrent (e : String × Number) (s : Store) :
    run (makeCurrent e) s = ⟨{ s with current := Reserved.write s.current e.1 e.2 }, [], .ok ()⟩ :=
  rfl

theorem foldl_write_current (entries : List (String × Number)) (s : Store) :
    entries.foldl (fun s e => { s with current := Reserved.write s.current e.1 e.2 }) s =
      { s with current := entries.foldl (fun r e => Reserved.write r e.1 e.2) s.current } := by
  induction entries generalizing s with
  | nil => rfl
  | cons e rest ih => rw [List.foldl_cons, ih]; rfl

/-! ## Whole requests -/

theorem run_writes (f : Store → Except StoreError Store) (s : Store) : run (Request.writes f) s =
    match f s with
    | .ok s' => ⟨s', [], .ok .done⟩
    | .error e => ⟨s, [], .error e⟩ := by
  rw [Request.writes, run_bind, run, writing]
  cases f s <;> rfl

theorem run_applyLatest (stack : StackId) (service : String) (s : Store) :
    run (inSteps (.applyLatest stack service)) s =
      run (operation (.applyLatest stack service)) s := by
  have latest : run (look (·.latestVersions stack service) : Operation StoreError _) s =
      ⟨s, [], .ok (s.latestVersions stack service)⟩ := rfl
  rw [operation, run_writes, inSteps, run_bind_of_silent latest, Store.applyLatest]
  generalize s.latestVersions stack service = latest
  cases h : latest.entries.isEmpty with
  | true => rfl
  | false =>
    have types : run (look (·.current.keys) : Operation StoreError _) s =
        ⟨s, [], .ok s.current.keys⟩ := rfl
    have drops := run_each_of_assign (run_dropOutdated service latest) s.current.keys s
    have inserts := run_each_of_assign run_makeCurrent latest.entries
    rw [if_neg Bool.false_ne_true, if_neg Bool.false_ne_true, run_bind_of_silent types,
      run_bind_of_silent drops, run_bind_of_silent (inserts _),
      foldl_dropped latest s.current.nodup_keys,
      foldl_write_current, Reserved.foldl_write]
    -- Only keys that are there are kept or dropped.
    have kept : s.current.filterKeys (fun type => !(decide (type ∈ s.current.keys) &&
        (s.ownedBy service type && !latest.has type))) =
          s.current.filterKeys fun type => !(s.ownedBy service type && !latest.has type) := by
      refine Record.eq_of_entries_eq (List.filter_congr ?_)
      intro e mem
      have there : e.1 ∈ s.current.keys := List.mem_map_of_mem mem
      simp [there]
    rw [kept]
    rfl

theorem run_pushRevision (stack : StackId) (service actor comment : String)
    (e : String × Properties) (s : Store) : run (pushRevision stack service actor comment e) s =
      ⟨s.addRevision stack service e.1 e.2 actor comment, [], .ok ()⟩ := rfl

/-- A change of a host in its place is the change of the store. -/
theorem run_changeHost (service component host : String) (f : HostState → HostState) (s : Store) :
    run (changeHost service component host f) s =
      run (writes (·.updateHost service component host f)) s := by
  rw [run_writes, changeHost]
  rcases hostAt_spec service component host s with ⟨e, hrun, fails⟩ | ⟨i, j, k, hrun, changes⟩
  · rw [run_bind, hrun, fails]
    rfl
  · rw [run_bind_of_silent hrun, changes]
    rfl

/-- A request in single steps comes to what it comes to at once. -/
theorem inSteps_eq (r : Request) : r.inSteps = r.operation := by
  funext s
  show run r.inSteps s = run r.operation s
  cases r with
  | defaults | live | current | created | placeholder | snapshot => rfl
  | applyLatest stack service => exact run_applyLatest stack service s
  | create stack service configs actor comment =>
    have pushes :=
      run_each_of_assign (run_pushRevision stack service actor comment) configs.entries s
    rw [inSteps, operation, run_writes, run_bind_of_silent pushes]
    rfl
  | components service =>
    rcases serviceAt_spec service s with ⟨e, hrun, -, hread⟩ | ⟨i, x, hrun, hx, -, -, hread⟩
    · rw [inSteps, run_bind, hrun, operation]
      show _ = run (reads _ _) s
      simp [reads, run, reading, hread, after, Except.map]
    · rw [inSteps, run_bind_of_silent hrun]
      show (⟨s, [], .ok (.components (s.componentsAt i))⟩ : Outcome StoreError Answer) =
        ⟨s, [], (s.componentsOf service).map Answer.components⟩
      rw [hread, componentsAt_eq hx]
      rfl
  | setServiceRepository service version =>
    rw [operation, run_writes, Store.setServiceRepository]
    rcases serviceAt_spec service s with ⟨e, hrun, fails, -⟩ | ⟨i, x, hrun, -, -, changes, -⟩
    · rw [inSteps, run_bind, hrun, fails]
      rfl
    · rw [inSteps, run_bind_of_silent hrun,
        changes _ (fun x => { x with desiredRepository := some version }) rfl]
      rfl
  | setComponentRepository service component version =>
    rw [operation, run_writes, Store.setComponentRepository]
    rcases componentAt_spec service component s with
      ⟨e, hrun, fails⟩ | ⟨i, j, c, hrun, -, -, changes⟩
    · rw [inSteps, run_bind, hrun, fails]
      rfl
    · rw [inSteps, run_bind_of_silent hrun,
        changes _ (fun c => { c with desiredVersion := some version.version }) rfl]
      rfl
  | setHostState service component host state => exact run_changeHost service component host _ s
  | setHostVersion service component host version => exact run_changeHost service component host _ s

/-- A request that fails has changed nothing: it fails before its first assignment. -/
theorem store_inSteps_of_error {r : Request} {e : StoreError}
    (h : (run r.inSteps s).result = .error e) : (run r.inSteps s).store = s := by
  rw [inSteps_eq] at h ⊢
  have writes {f : Store → Except StoreError Store}
      (hf : (run (Request.writes f) s).result = .error e) :
      (run (Request.writes f) s).store = s := by
    rw [run_writes] at hf ⊢
    cases hs : f s with
    | error e' => rfl
    | ok s' =>
      rw [hs] at hf
      cases hf
  cases r with
  | defaults | live | current | created | placeholder | components | snapshot => rfl
  | applyLatest | create | setServiceRepository | setComponentRepository | setHostState
  | setHostVersion => exact writes h

end Request

end ClusterUpgrade
