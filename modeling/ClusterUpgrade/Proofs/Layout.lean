import ClusterUpgrade.Config.Repositories
import ClusterUpgrade.Proofs.Operation
import Mathlib.Data.List.Nodup

/-!
# Moves within a layout

The layout of a store is which services it has, with which components, on which hosts. The writes of
a move to new versions leave the layout as it is, and none of them is refused for names that are in
it. So a move never fails where the run names a version for every service of the layout and the
stack metadata know its components, and it says nothing then (`Repositories.steps_yields`). Its
results are those of the components of the layout, in order.
-/

namespace ClusterUpgrade

/-! ## Layouts -/

/-- The names of services, those of their components, and those of the hosts of these. -/
abbrev Layout := List (String × List (String × List String))

/-- Services, and the components of a service, are told apart by their names. -/
structure Layout.Distinct (l : Layout) : Prop where
  services : (l.map Prod.fst).Nodup
  components : ∀ x ∈ l, (x.2.map Prod.fst).Nodup

def ComponentState.layout (c : ComponentState) : String × List String :=
  (c.name, c.hosts.map (·.host))

def ServiceState.layout (x : ServiceState) : String × List (String × List String) :=
  (x.name, x.components.map (·.layout))

/-- The layout of a store. -/
def Store.layout (s : Store) : Layout := s.services.map (·.layout)

theorem eq_of_name_eq {α : Type} {items : List (String × α)} (distinct : (items.map Prod.fst).Nodup)
    {a b : String × α} (ha : a ∈ items) (hb : b ∈ items) (h : a.1 = b.1) : a = b :=
  List.inj_on_of_nodup_map distinct ha hb h

/-! ## Writes within a layout -/

/-- A change of the first item with a property succeeds where there is one and the change does. What
it keeps of the item, it keeps of the list. -/
theorem exists_updateFirst {ε α β : Type} {p : α → Bool} (missing : ε) {f : α → Except ε α}
    (g : α → β) {xs : List α} (found : ∃ a ∈ xs, p a = true)
    (change : ∀ a ∈ xs, p a = true → ∃ b, f a = .ok b ∧ g b = g a) :
    ∃ ys, updateFirst p missing f xs = .ok ys ∧ ys.map g = xs.map g := by
  induction xs with
  | nil =>
    obtain ⟨a, mem, -⟩ := found
    cases mem
  | cons a rest ih =>
    unfold updateFirst
    by_cases here : p a = true
    · obtain ⟨b, hb, kept⟩ := change a List.mem_cons_self here
      refine ⟨b :: rest, by rw [if_pos here, hb]; rfl, ?_⟩
      rw [List.map_cons, List.map_cons, kept]
    · obtain ⟨a', mem, ha'⟩ := found
      have later : a' ∈ rest := (List.mem_cons.1 mem).resolve_left fun h => here (h ▸ ha')
      obtain ⟨ys, hys, kept⟩ :=
        ih ⟨a', later, ha'⟩ fun b mem' => change b (List.mem_cons_of_mem _ mem')
      refine ⟨a :: ys, by rw [if_neg here, hys]; rfl, ?_⟩
      rw [List.map_cons, List.map_cons, kept]

namespace Store

variable {l : Layout} {s : Store} {service component host : String}
  {components : List (String × List String)} {hosts : List String}

theorem exists_service (laid : s.layout = l) (hservice : (service, components) ∈ l) :
    ∃ x ∈ s.services, x.layout = (service, components) := by
  rw [← laid] at hservice
  exact List.mem_map.1 hservice

section Updates

variable (distinct : l.Distinct) (laid : s.layout = l) (hservice : (service, components) ∈ l)

include distinct laid hservice

/-- A service of a layout has the components that the layout gives it. -/
theorem layout_eq {x : ServiceState} (mem : x ∈ s.services) (named : x.name = service) :
    x.layout = (service, components) :=
  eq_of_name_eq distinct.services (laid ▸ List.mem_map_of_mem mem) hservice named

theorem exists_updateService {f : ServiceState → Except StoreError ServiceState}
    (change : ∀ x : ServiceState, x.layout = (service, components) →
      ∃ y, f x = .ok y ∧ y.layout = x.layout) :
    ∃ s', s.updateService service f = .ok s' ∧ s'.layout = l := by
  obtain ⟨x, mem, hx⟩ := exists_service laid hservice
  have found : ∃ y ∈ s.services, decide (y.name = service) = true :=
    ⟨x, mem, decide_eq_true (congrArg Prod.fst hx)⟩
  obtain ⟨ys, hys, kept⟩ := exists_updateFirst (.noService service s.clusterName)
    ServiceState.layout found fun y hy named =>
      change y (layout_eq distinct laid hservice hy (of_decide_eq_true named))
  exact ⟨{ s with services := ys }, by rw [updateService, hys]; rfl, kept.trans laid⟩

theorem exists_componentsOf :
    ∃ cs, s.componentsOf service = .ok cs ∧ cs.map (·.layout) = components := by
  obtain ⟨x, mem, hx⟩ := exists_service laid hservice
  have found : (s.service? service).isSome := by
    rw [service?, List.find?_isSome]
    exact ⟨x, mem, decide_eq_true (congrArg Prod.fst hx)⟩
  obtain ⟨y, hy⟩ := Option.isSome_iff_exists.1 found
  have first : s.services.find? (·.name = service) = some y := hy
  have laid_out := layout_eq distinct laid hservice (List.mem_of_find?_eq_some first)
    (by simpa using List.find?_some first)
  exact ⟨y.components, by rw [componentsOf, hy], congrArg Prod.snd laid_out⟩

theorem exists_updateComponent (hcomponent : (component, hosts) ∈ components)
    {f : ComponentState → Except StoreError ComponentState}
    (change : ∀ c : ComponentState, c.layout = (component, hosts) →
      ∃ c', f c = .ok c' ∧ c'.layout = c.layout) :
    ∃ s', s.updateComponent service component f = .ok s' ∧ s'.layout = l := by
  refine exists_updateService distinct laid hservice fun x hx => ?_
  have parts : x.components.map (·.layout) = components := congrArg Prod.snd hx
  obtain ⟨c, mem, hc⟩ := List.mem_map.1 (parts ▸ hcomponent)
  have found : ∃ c ∈ x.components, decide (c.name = component) = true :=
    ⟨c, mem, decide_eq_true (congrArg Prod.fst hc)⟩
  obtain ⟨cs, hcs, kept⟩ := exists_updateFirst (.noComponent service component)
    ComponentState.layout found fun c hc named => change c <|
      eq_of_name_eq (distinct.components _ hservice) (parts ▸ List.mem_map_of_mem hc) hcomponent
        (of_decide_eq_true named)
  refine ⟨{ x with components := cs }, by rw [hcs]; rfl, ?_⟩
  exact congrArg (Prod.mk x.name) kept

theorem exists_updateHost (hcomponent : (component, hosts) ∈ components) (hhost : host ∈ hosts)
    {f : HostState → HostState} (named : ∀ h, (f h).host = h.host) :
    ∃ s', s.updateHost service component host f = .ok s' ∧ s'.layout = l := by
  refine exists_updateComponent distinct laid hservice hcomponent fun c hc => ?_
  have places : c.hosts.map (·.host) = hosts := congrArg Prod.snd hc
  obtain ⟨h, mem, hh⟩ := List.mem_map.1 (places ▸ hhost)
  have found : ∃ h ∈ c.hosts, decide (h.host = host) = true := ⟨h, mem, decide_eq_true hh⟩
  obtain ⟨hs, hhs, kept⟩ := exists_updateFirst (StoreError.noHost service component host)
    HostState.host found fun h _ _ => ⟨f h, rfl, named h⟩
  refine ⟨{ c with hosts := hs }, by rw [hhs]; rfl, ?_⟩
  exact congrArg (Prod.mk c.name) kept

theorem exists_setServiceRepository (v : RepositoryVersion) :
    ∃ s', s.setServiceRepository service v = .ok s' ∧ s'.layout = l :=
  exists_updateService distinct laid hservice fun _ _ => ⟨_, rfl, rfl⟩

theorem exists_setComponentRepository (hcomponent : (component, hosts) ∈ components)
    (v : RepositoryVersion) :
    ∃ s', s.setComponentRepository service component v = .ok s' ∧ s'.layout = l := by
  obtain ⟨s', hs', kept⟩ := exists_updateComponent distinct laid hservice hcomponent
    (f := fun c => .ok { c with desiredVersion := some v.version }) fun _ _ => ⟨_, rfl, rfl⟩
  rw [setComponentRepository, hs']
  refine ⟨_, rfl, ?_⟩
  rwa [layout, services_recordComponentRepository]

end Updates

end Store

/-! ## Operations that succeed in silence -/

namespace Operation

variable {ε α β γ : Type} {P : Store → Prop}

/-- On every store with a property an operation succeeds in silence with a result of a kind, and the
store still has the property. -/
def Yields (P : Store → Prop) (op : Operation ε α) (Q : α → Prop) : Prop :=
  ∀ s, P s → ∃ a s', run op s = ⟨s', [], .ok a⟩ ∧ P s' ∧ Q a

namespace Yields

variable {op : Operation ε α} {Q : α → Prop}

theorem pure {a : α} (h : Q a) : Yields P (Pure.pure a : Operation ε α) Q :=
  fun s hs => ⟨a, s, rfl, hs, h⟩

theorem mono {R : α → Prop} (h : Yields P op Q) (weaker : ∀ a, Q a → R a) : Yields P op R := by
  intro s hs
  obtain ⟨a, s', hrun, hs', ha⟩ := h s hs
  exact ⟨a, s', hrun, hs', weaker a ha⟩

theorem bind {f : α → Operation ε β} {R : β → Prop} (first : Yields P op Q)
    (next : ∀ a, Q a → Yields P (f a) R) : Yields P (op >>= f) R := by
  intro s hs
  obtain ⟨a, s₁, hrun, hs₁, ha⟩ := first s hs
  obtain ⟨b, s₂, hrun', hs₂, hb⟩ := next a ha s₁ hs₁
  exact ⟨b, s₂, (run_bind_of_silent hrun).trans hrun', hs₂, hb⟩

theorem when {op : Operation ε Unit} (condition : Bool) (h : Yields P op fun _ => True) :
    Yields P (Operation.when condition op) fun _ => True := by
  cases condition with
  | true => exact h
  | false => exact pure trivial

/-- Over a list, the results are told item by item. -/
theorem each {f : α → Operation ε β} {g : β → γ} {h : α → γ} {as : List α}
    (item : ∀ a ∈ as, Yields P (f a) fun b => g b = h a) :
    Yields P (Operation.each f as) fun bs => bs.map g = as.map h := by
  induction as with
  | nil => exact pure rfl
  | cons a rest ih =>
    refine (item a List.mem_cons_self).bind fun b hb => ?_
    refine (ih fun a' mem => item a' (List.mem_cons_of_mem _ mem)).bind fun bs hbs => ?_
    exact pure (by rw [List.map_cons, List.map_cons, hb, hbs])

theorem reading {f : Store → Except StoreError α}
    (h : ∀ s, P s → ∃ a, f s = .ok a ∧ Q a) : Yields P (Transition.reading f) Q := by
  intro s hs
  obtain ⟨a, hf, ha⟩ := h s hs
  refine ⟨a, s, ?_, hs, ha⟩
  show (⟨s, [], (f s).mapError _⟩ : Outcome _ _) = _
  rw [hf]
  rfl

theorem writing {f : Store → Except StoreError Store} (h : ∀ s, P s → ∃ s', f s = .ok s' ∧ P s') :
    Yields P (Transition.writing f) fun _ => True := by
  intro s hs
  obtain ⟨s', hf, hs'⟩ := h s hs
  refine ⟨(), s', ?_, hs', trivial⟩
  simp only [run, Transition.writing, Operation.writing, hf]
  rfl

end Yields

theorem each_map (f : β → Operation ε γ) (g : α → β) (as : List α) :
    each f (as.map g) = each (fun a => f (g a)) as := by
  induction as with
  | nil => rfl
  | cons a rest ih => rw [List.map_cons, each, each, ih]

end Operation

/-! ## Moves -/

namespace Repositories

open Operation Store

variable {l : Layout} {run : UpgradeRun} {catalog : StackMetadata} {service component : String}
  {w : RepositoryVersion} {components : List (String × List String)} {hosts : List String}

section Service

variable (distinct : l.Distinct) (hservice : (service, components) ∈ l)

include distinct hservice

theorem markHost_yields (hcomponent : (component, hosts) ∈ components) {h : HostState}
    (hhost : h.host ∈ hosts) (advertised : Bool) (state : UpgradeState) :
    Yields (fun s => s.layout = l) (markHost service component advertised state h)
      fun _ => True := by
  have write (f : HostState → HostState) (named : ∀ h, (f h).host = h.host) :
      Yields (fun s => s.layout = l)
        (Transition.writing (·.updateHost service component h.host f)) fun _ => True :=
    .writing fun s laid => exists_updateHost distinct laid hservice hcomponent hhost named
  refine (Yields.when _ (write (fun h => { h with state }) fun _ => rfl)).bind fun _ _ => ?_
  exact .when _ (write (fun h => { h with version := unknownVersion }) fun _ => rfl)

theorem moveComponent_yields {c : ComponentState} (hc : c.layout ∈ components)
    (known : ∃ b, catalog.advertises w.stackId service c.name = .ok b) :
    Yields (fun s => s.layout = l) (moveComponent catalog service w c)
      fun t => (t.service, t.component) = (service, c.name) := by
  obtain ⟨b, hb⟩ := known
  have advertised : Yields (fun s => s.layout = l)
      (advertises catalog w.stackId service c.name) fun _ => True := by
    unfold advertises
    rw [hb]
    exact .pure trivial
  have mark (b : Bool) (state : UpgradeState) : Yields (fun s => s.layout = l)
      (Operation.each (markHost service c.name b state) c.hosts) fun us =>
        us.map (fun _ => ()) = c.hosts.map fun _ => () :=
    .each fun h mem => (markHost_yields distinct hservice hc (List.mem_map_of_mem mem) b state).mono
      fun _ _ => rfl
  refine Yields.bind (.writing fun s laid =>
    exists_setComponentRepository distinct laid hservice hc w) fun _ _ => ?_
  exact advertised.bind fun b _ => (mark b _).bind fun _ _ => .pure rfl

theorem moveService_yields (target : run.targets.get? service = some w)
    (known : ∀ c ∈ components, ∃ b, catalog.advertises w.stackId service c.1 = .ok b) :
    Yields (fun s => s.layout = l) (moveService run catalog service) fun ts =>
      ts.map (fun t => (t.service, t.component)) = components.map fun c => (service, c.1) := by
  have named : Yields (fun s => s.layout = l) (Transition.version run .target service)
      fun v => v = w := by
    simp only [Transition.version, target]
    exact .pure rfl
  refine named.bind fun v hv => ?_
  subst hv
  refine Yields.bind (.writing fun s laid =>
    exists_setServiceRepository distinct laid hservice v) fun _ _ => ?_
  refine Yields.bind (.reading fun s laid => exists_componentsOf distinct laid hservice)
    fun cs (hcs : cs.map (·.layout) = components) => ?_
  subst hcs
  rw [List.map_map]
  exact .each fun c mem => moveComponent_yields distinct hservice (List.mem_map_of_mem mem)
    (known _ (List.mem_map_of_mem mem))

end Service

/-- On a layout whose services have a version to go to, and whose components are known there, a move
succeeds in silence and tells of every component, in order. -/
theorem steps_yields (distinct : l.Distinct) (services : run.services = l.map Prod.fst)
    (known : ∀ x ∈ l, ∃ w, run.targets.get? x.1 = some w ∧
      ∀ c ∈ x.2, ∃ b, catalog.advertises w.stackId x.1 c.1 = .ok b) :
    Yields (fun s => s.layout = l) (steps run catalog) fun ts =>
      ts.map (fun t => (t.service, t.component)) =
        l.flatMap fun x => x.2.map fun c => (x.1, c.1) := by
  have moved : Yields (fun s => s.layout = l)
      (Operation.each (moveService run catalog) run.services) fun tss =>
        tss.map (fun ts => ts.map fun t => (t.service, t.component)) =
          l.map fun x => x.2.map fun c => (x.1, c.1) := by
    rw [services, each_map]
    refine .each fun x mem => ?_
    obtain ⟨w, target, knows⟩ := known x mem
    exact moveService_yields distinct mem target knows
  refine moved.bind fun tss htss => .pure ?_
  rw [List.map_flatten, htss, List.flatMap_def]

end Repositories

end ClusterUpgrade
