import ClusterUpgrade.Proofs.Parts
import ClusterUpgrade.Proofs.Reconcile.Outcome
import ClusterUpgrade.Proofs.Topology
import Mathlib.Data.List.Nodup

/-!
# A downgrade undoes an upgrade

An upgrade adds revisions on other stacks and nothing else (`Upgraded`), so on its own stack a
service still has the revisions of the description, one of each type
(`Upgraded.get?_latestVersions_eq_some_iff`). A downgrade makes them current again, service by
service (`Restored.applyLatest`); once it is through with all of them nothing else is current
(`Restored.current_eq`). `downgrade_undoes_upgrade` is the whole statement.
-/

namespace ClusterUpgrade.Reconcile

open Operation

variable {t : Topology} {s s' : Store} {stack : StackId} {service type : String} {v : Number}
  {options : ReconcileOptions} {c : ServiceChange} {done : List String}

/-! ## After an upgrade -/

/-- A store that has only gained revisions of its services on other stacks, none of them of a type
under whose name nothing can be written. -/
structure Upgraded (t : Topology) (s : Store) : Prop where
  sourced : s.Sourced
  revisions : ∃ new, s.revisions = t.revisions ++ new ∧
    ∀ r ∈ new, r.stack ≠ t.stack.text ∧ r.service ∈ t.services.map (·.name)
  reserved : s.current.get? Reserved.recordName = t.store.current.get? Reserved.recordName

namespace Upgraded

theorem start (sound : t.Sound) : Upgraded t t.store where
  sourced := Topology.sourced_store sound
  revisions := ⟨[], (List.append_nil _).symm, nofun⟩
  reserved := rfl

/-- An added revision of a type that can be written leaves the rest as it is. -/
theorem addRevision (h : Upgraded t s) (away : stack.text ≠ t.stack.text)
    (mem : service ∈ t.services.map (·.name)) (writable : Reserved.isWritable type = true)
    (properties : Properties) (actor comment : String) :
    Upgraded t (s.addRevision stack service type properties actor comment) where
  sourced := h.sourced.addRevision properties actor comment
  revisions := by
    obtain ⟨new, hnew, hall⟩ := h.revisions
    refine ⟨_, by rw [Store.addRevision, hnew, List.append_assoc], ?_⟩
    intro r hr
    rcases List.mem_append.1 hr with hr | hr
    · exact hall r hr
    · rw [List.mem_singleton.1 hr]
      exact ⟨away, mem⟩
  reserved := by
    have other : Reserved.recordName ≠ type := by
      rintro rfl
      exact absurd writable (by decide)
    rw [← h.reserved, Store.addRevision, Reserved.get?_write, if_neg fun both => other both.1]

/-- What is written of a change that is no revert. -/
theorem writes (h : Upgraded t s) (away : c.target.text ≠ t.stack.text)
    (mem : c.service ∈ t.services.map (·.name)) (kept : c.change ≠ .reverted)
    (hw : Writes options c s s') : Upgraded t s' := by
  rcases hw.cases with rfl | ⟨reverted, -⟩ | ⟨m, -, hm, rfl⟩
  · exact h
  · exact absurd reverted kept
  · exact Store.createRevisions_induction _ _ _
      (fun e he s hs => hs.addRevision away mem (isWritable_of_mergeOf hm he) _ _ _) h

/-- On the stack of the description a service still has the revisions of the description. -/
theorem revisionsOn_eq (h : Upgraded t s) :
    s.revisionsOn t.stack service = t.revisions.filter (·.service = service) := by
  obtain ⟨new, hnew, hall⟩ := h.revisions
  rw [Store.revisionsOn, hnew, List.filter_append]
  have none_new : new.filter (fun r => r.service = service ∧ r.stack = t.stack.text) = [] := by
    rw [List.filter_eq_nil_iff]
    intro r hr
    simp [(hall r hr).1]
  rw [none_new, List.append_nil]
  apply List.filter_congr
  intro r hr
  simp [Topology.stack_of_mem_revisions hr]

theorem get?_latestVersions_eq_some_iff (sound : t.Sound) (h : Upgraded t s) :
    (s.latestVersions t.stack service).get? type = some v ↔
      ∃ r ∈ t.revisions, r.service = service ∧ r.type = type ∧ r.version = v := by
  constructor
  · intro hv
    obtain ⟨r, mem, htype, hversion⟩ := Store.exists_of_get?_latestVersions hv
    rw [h.revisionsOn_eq, List.mem_filter, decide_eq_true_iff] at mem
    exact ⟨r, mem.1, mem.2, htype, hversion⟩
  · rintro ⟨r, mem, hservice, rfl, rfl⟩
    apply Store.get?_latestVersions_of_mem
    · rw [h.revisionsOn_eq]
      refine (List.filter_sublist.map _).nodup ?_
      rw [Topology.map_type_revisions]
      exact sound.types
    · rw [h.revisionsOn_eq, List.mem_filter, decide_eq_true_iff]
      exact ⟨mem, hservice⟩

/-- The version of a revision of the description still finds that revision. -/
theorem revision?_of_mem (few : t.configurations.length < Number.powerOfTwo 53) (h : Upgraded t s)
    {r : Revision} (mem : r ∈ t.revisions) : s.revision? r.version = some r := by
  obtain ⟨new, hnew, -⟩ := h.revisions
  have itself : r.version.same r.version = true := by
    refine Number.same_self (h.sourced.numbers r ?_)
    rw [hnew]
    exact List.mem_append_left _ mem
  have found : (t.revisions.find? (·.version.same r.version)).isSome := by
    rw [List.find?_isSome]
    exact ⟨r, mem, itself⟩
  obtain ⟨r', hr'⟩ := Option.isSome_iff_exists.1 found
  have same : r' = r := by
    have hsame := List.find?_some hr'
    exact Topology.eq_of_same_version few (List.mem_of_find?_eq_some hr') mem hsame
  rw [Store.revision?, hnew, List.find?_append, hr', same]
  rfl

/-- A type of another service is not among those that a service has on its own stack. -/
theorem get?_latestVersions_of_other (sound : t.Sound) (h : Upgraded t s) {r : Revision}
    (mem : r ∈ t.revisions) (other : r.service ≠ service) :
    (s.latestVersions t.stack service).get? r.type = none := by
  rw [Option.eq_none_iff_forall_ne_some]
  intro v hv
  obtain ⟨r', mem', hservice, htype, -⟩ := (h.get?_latestVersions_eq_some_iff sound).1 hv
  have types := sound.types
  rw [← Topology.map_type_revisions] at types
  rw [List.inj_on_of_nodup_map types mem' mem htype] at hservice
  exact other hservice

/-- What is current of the description can be made current again, whatever its name. -/
theorem takes_of_mem (sound : t.Sound) (h : Upgraded t s) {r : Revision} (mem : r ∈ t.revisions) :
    Reserved.takes s.current r.type = true := by
  by_cases writable : Reserved.isWritable r.type = true
  · exact Reserved.takes_of_isWritable writable _
  · have reserved : r.type = Reserved.recordName := by simpa [Reserved.isWritable] using writable
    have there := (Topology.get?_current_eq_some_iff sound).2 ⟨r, mem, rfl, rfl⟩
    rw [reserved, ← h.reserved] at there
    rw [reserved, Reserved.takes, Record.has, there, Option.isSome_some, Bool.or_true]

/-- Reverting a service makes its own revisions of the description current, and leaves those of
other services current. -/
theorem get?_appliedVersions_of_mem (sound : t.Sound)
    (few : t.configurations.length < Number.powerOfTwo 53) (h : Upgraded t s) {r : Revision}
    (mem : r ∈ t.revisions)
    (back : r.service = service ∨ s.current.get? r.type = some r.version) :
    (s.appliedVersions t.stack service).get? r.type = some r.version := by
  rw [Store.get?_appliedVersions (h.takes_of_mem sound mem)]
  by_cases own : r.service = service
  · rw [(h.get?_latestVersions_eq_some_iff sound).2 ⟨r, mem, own, rfl, rfl⟩]
    rfl
  · have hr := back.resolve_left own
    have foreign : s.ownedBy service r.type = false := by
      simp [Store.ownedBy, Store.currentRevision?, hr, h.revision?_of_mem few mem, own]
    rw [h.get?_latestVersions_of_other sound mem own, foreign, Option.none_or,
      if_neg Bool.false_ne_true, hr]

theorem applyLatest (sound : t.Sound) (few : t.configurations.length < Number.powerOfTwo 53)
    (h : Upgraded t s) (ha : s.applyLatest t.stack service = .ok s') : Upgraded t s' where
  sourced := h.sourced.applyLatest ha
  revisions := by
    rw [(Store.applyLatest_eq_ok_iff.1 ha).2]
    exact h.revisions
  reserved := by
    rw [(Store.applyLatest_eq_ok_iff.1 ha).2]
    cases hv : t.store.current.get? Reserved.recordName with
    | none =>
      apply Store.get?_appliedVersions_of_not_takes
      rw [Reserved.takes, Record.has, h.reserved, hv]
      rfl
    | some v =>
      obtain ⟨r, mem, htype, hr⟩ := (Topology.get?_current_eq_some_iff sound).1 hv
      rw [← htype, ← hr]
      refine h.get?_appliedVersions_of_mem sound few mem (Or.inr ?_)
      rw [htype, h.reserved, hv, hr]

end Upgraded

/-! ## During the downgrade -/

/-- A store in which some services have the configuration of the description again: all of it, and
nothing besides. -/
structure Restored (t : Topology) (done : List String) (s : Store) : Prop extends Upgraded t s where
  back : ∀ r ∈ t.revisions, r.service ∈ done → s.current.get? r.type = some r.version
  only : ∀ type r, s.currentRevision? type = some r → r.service ∈ done →
    s.current.get? type = t.store.current.get? type

namespace Restored

theorem start (h : Upgraded t s) : Restored t [] s := ⟨h, nofun, nofun⟩

/-- Reverting a service restores it and leaves those that are done as they are. -/
theorem applyLatest (sound : t.Sound) (few : t.configurations.length < Number.powerOfTwo 53)
    (h : Restored t done s) (ha : s.applyLatest t.stack service = .ok s') :
    Restored t (done ++ [service]) s' := by
  have upgraded := h.toUpgraded.applyLatest sound few ha
  obtain ⟨-, rfl⟩ := Store.applyLatest_eq_ok_iff.1 ha
  refine ⟨upgraded, ?_, ?_⟩
  -- What was back is the revision of another service, so it is neither written nor removed.
  · intro r mem hservice
    refine h.get?_appliedVersions_of_mem sound few mem ?_
    by_cases own : r.service = service
    · exact Or.inl own
    · exact Or.inr (h.back r mem (by simpa [own] using hservice))
  -- A type whose owner is done is one of the latest, or its owner was done before.
  · intro type r hcurrent hservice
    obtain ⟨v, hv, hrevision⟩ := Option.bind_eq_some_iff.1 hcurrent
    rw [hv]
    rcases Store.of_get?_appliedVersions hv with hlatest | ⟨hown, hs⟩
    · obtain ⟨b, mem, -, htype, hversion⟩ :=
        (h.get?_latestVersions_eq_some_iff sound).1 hlatest
      exact ((Topology.get?_current_eq_some_iff sound).2 ⟨b, mem, htype, hversion⟩).symm
    · have hr : s.currentRevision? type = some r := by
        rw [Store.currentRevision?, hs]
        exact hrevision
      have foreign : r.service ≠ service := by simpa [Store.ownedBy, hr] using hown
      rw [← h.only type r hr (by simpa [foreign] using hservice), hs]

/-- Once every service is done, what is current is what the description says. -/
theorem current_eq (sound : t.Sound) (owned : t.Owned)
    (h : Restored t (t.services.map (·.name)) s) (type : String) :
    s.current.get? type = t.store.current.get? type := by
  have listed {r : Revision} (mem : r ∈ t.revisions) : r.service ∈ t.services.map (·.name) := by
    obtain ⟨x, hx, hservice⟩ := Topology.exists_configuration mem
    rw [← hservice]
    exact owned.owned x hx
  cases hs : s.current.get? type with
  | some v =>
    obtain ⟨r, mem, hr⟩ := h.sourced.exists_currentRevision hs
    obtain ⟨new, hnew, hall⟩ := h.revisions
    rw [hnew, List.mem_append] at mem
    have hservice : r.service ∈ t.services.map (·.name) :=
      mem.elim listed fun mem => (hall r mem).2
    rw [← hs, h.only type r hr hservice]
  | none =>
    symm
    rw [Option.eq_none_iff_forall_ne_some]
    intro v hv
    obtain ⟨r, mem, rfl, -⟩ := (Topology.get?_current_eq_some_iff sound).1 hv
    rw [h.back r mem (listed mem)] at hs
    cases hs

end Restored

/-! ## Both runs -/

/-- An upgrade to another stack leaves a store that has only gained revisions there. -/
theorem upgraded_of_reconcile {run : UpgradeRun} {request : RunRequest} {away : RepositoryVersion}
    (sound : t.Sound) (up : request.direction = .upgrade)
    (haway : t.version request.target = .ok away)
    (differs : away.stackId.text ≠ t.stack.text) (hrun : t.run request = .ok run) :
    Upgraded t ((reconcile run options).run t.store).store := by
  obtain ⟨target, htarget, hdirection, hservices, htargets⟩ := Topology.run_eq_ok sound hrun
  obtain rfl : away = target := Except.ok.inj (haway.symm.trans htarget)
  cases hresult : ((reconcile run options).run t.store).result with
  | error e =>
    rw [reconcile, store_transaction_of_error hresult]
    exact .start sound
  | ok cs =>
    obtain ⟨copyable, s', heval⟩ := result_eq_ok_iff.1 hresult
    rw [reconcile, (transaction_of_eval_ok copyable heval).2]
    obtain ⟨hcs, writes, accounted⟩ := eval_steps_eq_ok heval
    refine writes.induction (P := fun _ s => Upgraded t s) (.start sound) ?_
    intro done c rest s s' hdone h hwrites
    have hc := accounted done c rest hdone
    obtain ⟨w, hw, htarget⟩ := hc.target
    refine h.writes ?_ ?_ ?_ hwrites
    · rw [htarget, htargets _ _ hw]
      exact differs
    · rw [← hservices, ← hcs, hdone]
      simp
    · intro reverted
      have down := (hc.reverted_iff.1 reverted).2.2
      rw [hdirection, up] at down
      cases down

/-- A service of the description meets no obstacle on its way back. -/
theorem no_obstacle {run : UpgradeRun} {home away : RepositoryVersion} {before : List String}
    {e : TransitionError} (owned : t.Owned) (h : Upgraded t s)
    (mem : service ∈ t.services.map (·.name)) (down : run.direction = .downgrade)
    (hv : run.sources.get? service = some away) (hw : run.targets.get? service = some home)
    (stays : home.stackId = t.stack) : ¬ Obstacle run options s before service e := by
  intro obstacle
  cases obstacle with
  | noSource hv' => rw [hv] at hv'; cases hv'
  | noTarget _ hw' => rw [hw] at hw'; cases hw'
  | noSourceDefaults _ _ _ up | noTargetDefaults _ _ _ up => rw [down] at up; cases up
  | noRevisions _ hw' _ _ _ _ missing =>
    obtain rfl := Option.some.inj (hw.symm.trans hw')
    obtain ⟨x, hx, rfl⟩ := List.mem_map.1 mem
    obtain ⟨c, hc, hservice⟩ := owned.owns x hx
    obtain ⟨r, hr, hr'⟩ := Topology.exists_revision hc
    obtain ⟨new, hnew, -⟩ := h.revisions
    refine missing r ?_ ⟨hr'.trans hservice, ?_⟩
    · rw [hnew]
      exact List.mem_append_left _ hr
    · rw [Topology.stack_of_mem_revisions hr, stays]

/-- What a downgrade over all services comes to on a store that has only gained revisions
elsewhere. -/
theorem restored_of_reconcile {run : UpgradeRun} {home away : RepositoryVersion}
    (sound : t.Sound) (few : t.configurations.length < Number.powerOfTwo 53) (owned : t.Owned)
    (h : Upgraded t s) (stays : home.stackId = t.stack) (differs : away.stackId ≠ t.stack)
    (down : run.direction = .downgrade) (hservices : run.services = t.services.map (·.name))
    (hsources : ∀ service ∈ run.services, run.sources.get? service = some away)
    (htargets : ∀ service ∈ run.services, run.targets.get? service = some home)
    (real : options.dryRun = false) (all : options.downgradeScope = .allServices) :
    ∃ cs s', eval (steps run options) s = .ok (cs, s') ∧
      cs.map (·.service) = t.services.map (·.name) ∧ (∀ c ∈ cs, c.change = .reverted) ∧
      Restored t (t.services.map (·.name)) s' ∧ s'.revisions = s.revisions := by
  cases heval : eval (steps run options) s with
  | error e =>
    obtain ⟨passed, service, rest, hrun, obstacle, -⟩ := eval_steps_eq_error_iff.1 heval
    have mem : service ∈ run.services := by simp [hrun]
    exact absurd obstacle (no_obstacle owned h (hservices ▸ mem) down (hsources _ mem)
      (htargets _ mem) stays)
  | ok p =>
    obtain ⟨cs, s'⟩ := p
    obtain ⟨hcs, writes, accounted⟩ := eval_steps_eq_ok heval
    have reverted {done rest : List ServiceChange} {c : ServiceChange}
        (hdone : cs = done ++ c :: rest) : c.target = t.stack ∧ c.change = .reverted := by
      have mem : c.service ∈ run.services := by simp [← hcs, hdone]
      have hc := accounted done c rest hdone
      have source := hc.source_eq (hsources _ mem)
      have target := (hc.target_eq (htargets _ mem)).trans stays
      refine ⟨target, hc.reverted_of_allServices all down ?_⟩
      rw [source, target]
      exact differs
    have restored : Restored t (cs.map (·.service)) s' ∧ s'.revisions = s.revisions := by
      refine writes.induction
        (P := fun done s' => Restored t (done.map (·.service)) s' ∧ s'.revisions = s.revisions)
        ⟨.start h, rfl⟩ ?_
      rintro done c rest s₁ s₂ hdone ⟨hrestored, hrevisions⟩ hwrites
      obtain ⟨htarget, hc⟩ := reverted hdone
      have ha : s₁.applyLatest t.stack c.service = .ok s₂ := by
        simpa [Writes, hc, real, htarget] using hwrites
      refine ⟨?_, ?_⟩
      · rw [List.map_append]
        exact hrestored.applyLatest sound few ha
      · rw [(Store.applyLatest_eq_ok_iff.1 ha).2]
        exact hrevisions
    rw [hcs, hservices] at restored
    refine ⟨cs, s', rfl, hcs.trans hservices, ?_, restored⟩
    intro c mem
    obtain ⟨done, rest, hdone⟩ := List.append_of_mem mem
    exact (reverted hdone).2

variable {orchestration orchestration' : Orchestration} {scope scope' : Option Scope}
  {version : String} {home away : RepositoryVersion} {up : UpgradeRun}

/-- A reconciliation that succeeds has a version for every service, so it has none under whose name
nothing can be written. -/
theorem isWritable_of_succeeds {run : UpgradeRun} {request : RunRequest} {cs : List ServiceChange}
    (sound : t.Sound) (hrun : t.run request = .ok run)
    (succeeds : ((reconcile run options).run s).result = .ok cs) (mem : service ∈ run.services) :
    Reserved.isWritable service = true := by
  obtain ⟨-, s', heval⟩ := result_eq_ok_iff.1 succeeds
  obtain ⟨hcs, -, accounted⟩ := eval_steps_eq_ok heval
  rw [← hcs] at mem
  obtain ⟨c, hc, rfl⟩ := List.mem_map.1 mem
  obtain ⟨done, rest, hdone⟩ := List.append_of_mem hc
  obtain ⟨w, hw, -⟩ := (accounted done c rest hdone).target
  obtain ⟨target, sources, source, -, -, -, rfl⟩ := Topology.exists_of_run hrun
  exact ((Topology.get?_eachService_iff sound).1 hw).1

/-- **A downgrade undoes an upgrade.** After an upgrade to a version on another stack, a downgrade
of all services to the version that the cluster had succeeds: it reverts every service, every type
has the current version of the description again and no other type is current, and the revisions of
the upgrade are still there. The upgrade has to succeed, unless something can be written under the
name of every service. Versions are numbers, and beyond 2^53 the next one may be the same; no list
of configurations comes to be that long. -/
theorem downgrade_undoes_upgrade (sound : t.Sound)
    (few : t.configurations.length < Number.powerOfTwo 53) (owned : t.Owned)
    (hhome : t.version t.currentVersion = .ok home) (stays : home.stackId = t.stack)
    (haway : t.version version = .ok away) (differs : away.stackId ≠ t.stack)
    (hup : t.run ⟨.upgrade, orchestration, scope, version, none⟩ = .ok up)
    (forth back : ReconcileOptions)
    (succeeds : (∃ cs, ((reconcile up forth).run t.store).result = .ok cs) ∨
      ∀ service ∈ up.services, Reserved.isWritable service = true)
    (real : back.dryRun = false) (all : back.downgradeScope = .allServices) :
    let upgraded := ((reconcile up forth).run t.store).store
    ∃ down, t.run ⟨.downgrade, orchestration', scope', t.currentVersion, some version⟩ = .ok down ∧
      let o := (reconcile down back).run upgraded
      (∃ cs, o.result = .ok cs ∧ cs.map (·.service) = t.services.map (·.name) ∧
        ∀ c ∈ cs, c.change = .reverted) ∧
      (∀ type, o.store.current.get? type = t.store.current.get? type) ∧
      o.store.revisions = upgraded.revisions := by
  intro upgraded
  have written : away.stackId.Written := Topology.written_of_version sound haway
  have elsewhere : away.stackId.text ≠ t.stack.text :=
    fun same => differs (StackId.eq_of_text_eq written sound.stack same)
  have h : Upgraded t upgraded := upgraded_of_reconcile sound rfl haway elsewhere hup
  have copyable : upgraded.uncopyable = none := by
    have kept := (keeps_reconciledFrom up forth t.store).transaction TransitionError.refused
    exact congrArg (·.uncopyable) (kept t.store rfl)
  have writable : ∀ service ∈ t.services.map (·.name), Reserved.isWritable service = true := by
    obtain ⟨-, -, -, hservices, -⟩ := Topology.run_eq_ok sound hup
    rw [← hservices]
    rcases succeeds with ⟨cs, succeeds⟩ | writable
    · exact fun service mem => isWritable_of_succeeds sound hup succeeds mem
    · exact writable
  obtain ⟨down, hdown, hdirection, hservices, hversions⟩ :=
    Topology.exists_run_of_source sound ⟨.downgrade, orchestration', scope', t.currentVersion,
      some version⟩ rfl haway hhome
  refine ⟨down, hdown, ?_⟩
  intro o
  obtain ⟨cs, s', heval, hcs, reverted, restored, hrevisions⟩ :=
    restored_of_reconcile sound few owned h stays differs hdirection hservices
      (fun service mem => (hversions service mem (writable service (hservices ▸ mem))).1)
      (fun service mem => (hversions service mem (writable service (hservices ▸ mem))).2)
      real all
  have hresult : o.result = .ok cs := result_eq_ok_iff.2 ⟨copyable, s', heval⟩
  have hstore : o.store = s' := (transaction_of_eval_ok copyable heval).2
  rw [hstore]
  exact ⟨⟨cs, hresult, hcs, reverted⟩, restored.current_eq sound owned, hrevisions⟩

/-- The upgrade takes a type from its service and makes a new one current; the downgrade undoes
both. -/
theorem downgrade_undoes_upgrade_sharedSite : ∃ up down,
    Topology.sharedSite.run ⟨.upgrade, .rolling, none, "2.3.0.0", none⟩ = .ok up ∧
    Topology.sharedSite.run ⟨.downgrade, .rolling, none, "2.2.0.0", some "2.3.0.0"⟩ = .ok down ∧
    let options := ⟨"admin", "upgrade", .allServices, false⟩
    let upgraded := ((reconcile up options).run Topology.sharedSite.store).store
    let o := (reconcile down options).run upgraded
    (upgraded.ownedBy "ZOOKEEPER" "hdfs-site" ∧ upgraded.current.has "zookeeper-logs") ∧
    (∃ cs, o.result = .ok cs ∧ cs.map (·.service) = ["ZOOKEEPER", "HDFS"] ∧
      ∀ c ∈ cs, c.change = .reverted) ∧
    (∀ type, o.store.current.get? type = Topology.sharedSite.store.current.get? type) ∧
    o.store.revisions = upgraded.revisions := by
  have sound : Topology.sharedSite.Sound := ⟨by decide, by decide, by decide, by decide⟩
  have owned : Topology.sharedSite.Owned := ⟨by decide, by decide⟩
  have hup : Topology.sharedSite.run ⟨.upgrade, .rolling, none, "2.3.0.0", none⟩ = .ok _ := rfl
  obtain ⟨down, hdown, h⟩ := downgrade_undoes_upgrade sound (by decide) owned rfl rfl rfl
    (by decide) hup _ ⟨"admin", "upgrade", .allServices, false⟩ (Or.inr (by decide)) rfl rfl
  exact ⟨_, down, hup, hdown, by decide, h⟩

end ClusterUpgrade.Reconcile
