import ClusterUpgrade.Proofs.Failures

/-!
# What a host table answers

The host table of a topology has one entry for each written key of a service and a component. Where
two components are written alike, the last one answers for both (`resolve?_eq`); services whose
names hold no slash keep their components apart (`keysApart_of_slashless`). Hosts that are unhealthy
are never among the hosts to work on. But a host that a component names twice is given twice, so the
hosts are free of duplicates exactly when the topology names each healthy host once
(`hostsInOrder_iff`).
-/

namespace ClusterUpgrade

/-- The hosts to work on are as a component declares them: in its order, each once, and none of them
unhealthy. -/
structure HostGroup.InOrder (g : HostGroup) (declared : ComponentHosts) : Prop where
  ordered : g.hosts.Sublist declared.hosts
  nodup : g.hosts.Nodup
  healthy : ∀ host ∈ g.hosts, host ∉ g.unhealthy

theorem ComponentHosts.hosts_group_sublist (c : ComponentHosts) : c.group.hosts.Sublist c.hosts :=
  List.filter_sublist

/-- No host to work on is unhealthy. -/
theorem ComponentHosts.healthy_group (c : ComponentHosts) :
    ∀ host ∈ c.group.hosts, host ∉ c.group.unhealthy := by
  intro host mem
  exact of_decide_eq_true (List.mem_filter.1 mem).2

namespace Topology

variable {t : Topology} {s : ServiceTopology} {c : ComponentTopology} {service component : String}
  {p : ComponentHosts} {g : HostGroup}

/-- The placements of all components of services under whose name something can be written, by their
written keys, in order. -/
def placements (t : Topology) : List (String × ComponentHosts) :=
  (t.services.filter fun s => Reserved.isWritable s.name).flatMap fun s =>
    s.components.map fun c => (componentKey s.name c.name, c.placement)

/-- The placement that answers for a component: the last one with its written key. -/
def answering (t : Topology) (service component : String) : Option ComponentHosts :=
  (t.placements.filter fun e => e.1 = componentKey service component).getLast?.map Prod.snd

/-- All components are written apart. -/
def KeysApart (t : Topology) : Prop := (t.placements.map Prod.fst).Nodup

instance (t : Topology) : Decidable t.KeysApart := inferInstanceAs (Decidable (List.Nodup _))

/-- For every component the host table gives hosts as the component declares them; it gives none
only for a service under whose name nothing can be written. -/
def HostsInOrder (t : Topology) : Prop :=
  ∀ s ∈ t.services, ∀ c ∈ s.components,
    (Reserved.isWritable s.name = true → (t.hosts.resolve? s.name c.name).isSome = true) ∧
      ∀ g, t.hosts.resolve? s.name c.name = some g → g.InOrder c.placement

/-- What answers for a component, which is the component itself unless another one is written alike,
names each of its healthy hosts once, in the order of the component. -/
def NamedOnce (t : Topology) : Prop :=
  ∀ s ∈ t.services, ∀ c ∈ s.components, ∀ p ∈ t.answering s.name c.name,
    p.group.hosts.Nodup ∧ p.group.hosts.Sublist c.placement.hosts

/-! ## The last placement answers -/

theorem hosts_table (t : Topology) : t.hosts.table = .ofList t.placements := by
  unfold hosts HostTable.ofServices placements
  simp only [List.flatMap_map, List.map_map]
  rfl

theorem get?_placements (t : Topology) (service component : String) :
    (Record.ofList t.placements).get? (componentKey service component) =
      t.answering service component := by
  rw [Record.ofList, Record.get?_foldl_insert Prod.fst Prod.snd, Record.get?_empty, Option.or_none]
  rfl

theorem resolve?_eq (t : Topology) (service component : String) :
    t.hosts.resolve? service component = (t.answering service component).map (·.group) := by
  rw [HostTable.resolve?, hosts_table, get?_placements]

theorem mem_placements (hs : s ∈ t.services) (writable : Reserved.isWritable s.name = true)
    (hc : c ∈ s.components) : (componentKey s.name c.name, c.placement) ∈ t.placements :=
  List.mem_flatMap.2 ⟨s, List.mem_filter.2 ⟨hs, writable⟩, List.mem_map.2 ⟨c, hc, rfl⟩⟩

/-- What answers is the placement of a component with the written key. -/
theorem exists_of_answering (h : t.answering service component = some p) :
    ∃ s ∈ t.services, ∃ c ∈ s.components,
      componentKey s.name c.name = componentKey service component ∧ c.placement = p := by
  obtain ⟨e, last, rfl⟩ := Option.map_eq_some_iff.1 h
  obtain ⟨mem, key⟩ := List.mem_filter.1 (List.mem_of_getLast? last)
  obtain ⟨s, hs, listed⟩ := List.mem_flatMap.1 mem
  obtain ⟨c, hc, rfl⟩ := List.mem_map.1 listed
  exact ⟨s, List.mem_of_mem_filter hs, c, hc, of_decide_eq_true key, rfl⟩

/-- Something answers for every component of a service under whose name something can be written. -/
theorem exists_answering (hs : s ∈ t.services) (writable : Reserved.isWritable s.name = true)
    (hc : c ∈ s.components) :
    ∃ p, t.answering s.name c.name = some p := by
  have mem : (componentKey s.name c.name, c.placement) ∈
      t.placements.filter fun e => e.1 = componentKey s.name c.name :=
    List.mem_filter.2 ⟨mem_placements hs writable hc, decide_eq_true rfl⟩
  have some_last := List.getLast?_isSome.2 (List.ne_nil_of_mem mem)
  obtain ⟨e, last⟩ := Option.isSome_iff_exists.1 some_last
  exact ⟨e.2, congrArg (Option.map Prod.snd) last⟩

theorem answering_congr {service' component' : String}
    (same : componentKey service component = componentKey service' component') :
    t.answering service component = t.answering service' component' := by
  unfold answering
  rw [same]

/-- Components that are written apart answer for themselves. -/
theorem KeysApart.answering_eq (apart : t.KeysApart) (hs : s ∈ t.services)
    (writable : Reserved.isWritable s.name = true) (hc : c ∈ s.components) :
    t.answering s.name c.name = some c.placement := by
  rw [← get?_placements]
  exact (Record.get?_ofList_eq_some_iff apart).2 (mem_placements hs writable hc)

theorem componentKey_inj {service component service' component' : String}
    (slashless : '/' ∉ service.toList) (slashless' : '/' ∉ service'.toList)
    (same : componentKey service component = componentKey service' component') :
    service = service' ∧ component = component' := by
  have written (s c : String) : (componentKey s c).toList = s.toList ++ '/' :: c.toList := by
    simp [componentKey]
  have chars := congrArg String.toList same
  rw [written, written] at chars
  -- The first slash ends the name of the service.
  obtain ⟨hs, -, hc⟩ := eq_of_append_cons_eq (P := (· = '/')) (List.forall_mem_ne'.2 slashless)
    (List.forall_mem_ne'.2 slashless') rfl rfl chars
  exact ⟨String.toList_inj.1 hs, String.toList_inj.1 hc⟩

/-- Where names are distinct and no service has a slash in its name, components are written
apart. -/
theorem keysApart_of_slashless {d : Document} (accepted : (check d).value = some t)
    (distinct : d.distinctNames) (slashless : ∀ s ∈ t.services, '/' ∉ s.name.toList) :
    t.KeysApart := by
  have keys : t.placements.map Prod.fst =
      (t.services.filter fun s => Reserved.isWritable s.name).flatMap fun s =>
        s.components.map fun c => componentKey s.name c.name := by
    simp only [placements, List.map_flatMap, List.map_map]
    rfl
  rw [KeysApart, keys, List.nodup_flatMap]
  have slash {a b : ServiceTopology} (ha : a ∈ t.services) (hb : b ∈ t.services) {x y : String}
      (same : componentKey a.name x = componentKey b.name y) : a.name = b.name ∧ x = y :=
    componentKey_inj (slashless a ha) (slashless b hb) same
  have services : ((t.services.filter fun s => Reserved.isWritable s.name).map (·.name)).Nodup :=
    (List.filter_sublist.map _).nodup (sound_of_distinctNames accepted distinct).services
  constructor
  · intro s mem
    have hs := List.mem_of_mem_filter mem
    have names := nodup_components accepted distinct hs
    refine List.pairwise_map.2 ((List.pairwise_map.1 names).imp ?_)
    intro a b differ same
    exact differ (slash hs hs same).2
  · refine (List.pairwise_map.1 services).imp_of_mem fun {a b} ha hb differ => ?_
    intro key inA inB
    obtain ⟨x, -, rfl⟩ := List.mem_map.1 inA
    obtain ⟨y, -, same⟩ := List.mem_map.1 inB
    exact differ (slash (List.mem_of_mem_filter hb) (List.mem_of_mem_filter ha) same).1.symm

theorem hostsInOrder_iff : t.HostsInOrder ↔ t.NamedOnce := by
  refine forall₂_congr fun s hs => forall₂_congr fun c hc => ?_
  rw [resolve?_eq, Option.isSome_map]
  constructor
  · rintro ⟨-, given⟩ p answers
    have ordered := given p.group (congrArg (Option.map (·.group)) answers)
    exact ⟨ordered.nodup, ordered.ordered⟩
  · intro once
    refine ⟨fun writable => ?_, fun g given => ?_⟩
    · obtain ⟨p, answers⟩ := exists_answering hs writable hc
      exact Option.isSome_of_mem answers
    · obtain ⟨p, answers, rfl⟩ := Option.map_eq_some_iff.1 given
      obtain ⟨nodup, ordered⟩ := once p answers
      exact ⟨ordered, nodup, p.healthy_group⟩

end Topology

end ClusterUpgrade
