import ClusterUpgrade.Proofs.Reconcile.Turn
import ClusterUpgrade.Proofs.Versions

/-!
# What an upgrade keeps

A service that merges a type of its own keeps every live property (`mergedLive_keeps`). But a
service that the new stack lists a type for takes it from its owner with nothing but the defaults in
it, and an owner that comes after such a service merges nothing. So what becomes of a type is
settled by the last service that takes it (`Disposed`), and an upgrade keeps what is live exactly
when each type is `Spared`: no other service takes it, or the last one that does ships what its
owner would have. `upgrade_keeps_live_iff` is the whole statement.
-/

namespace ClusterUpgrade

open Reserved

/-- A merge keeps every live property of a type: with the live value or with the new default. -/
theorem Merge.mergedLive_keeps {input : MergeInput} {c : LiveConfig} {key value : String}
    (writable : key ≠ recordName) (h : c.properties.get? key = some value) :
    ∃ v, (mergedLive input c).get? key = some v ∧ (v = value ∨
      ∃ new, input.newDefaults.get? c.type = some new ∧ new.shipped.get? key = some v) := by
  unfold mergedLive
  cases hnew : newOf? input c.type with
  | none => exact ⟨value, h, Or.inl rfl⟩
  | some new =>
    simp only
    rw [Merge.get?_properties, if_neg writable, h]
    cases hn : (new.get? key).join with
    | none => exact ⟨value, rfl, Or.inl rfl⟩
    | some n =>
      -- A default that is not null is listed, so it is not that of a reserved type.
      have listed : input.newDefaults.get? c.type = some new := by
        cases hd : input.newDefaults.get? c.type with
        | some d => rw [← hnew, newOf?_of_some hd]
        | none =>
          rw [newOf?, hd] at hnew
          change (if isKnown c.type then some Record.empty else none) = some new at hnew
          split at hnew
          · rw [← Option.some.inj hnew, Record.get?_empty] at hn
            cases hn
          · cases hnew
      by_cases hl : value = n ∨ (oldOf input c.type).get? key = some (some value)
      · refine ⟨n, by simp only [settled, if_pos hl], Or.inr ⟨new, listed, ?_⟩⟩
        rw [get?_shipped_of_ne writable, hn]
      · exact ⟨value, by simp only [settled, if_neg hl], Or.inl rfl⟩

namespace Reconcile

open Operation

variable {run : UpgradeRun} {options : ReconcileOptions} {s s' s₁ s₂ : Store}
  {before done : List String} {type service : String} {r : Revision} {c : ServiceChange}
  {cs : List ServiceChange}

/-! ## What is kept -/

/-- The properties that the new stack ships for a type under a service. -/
def shippedFor (run : UpgradeRun) (s : Store) (service type : String) : Properties :=
  let version := (run.targets.get? service).getD run.repository
  (((s.defaultsOf version.stackId service).toOption.bind (·.get? type)).map Defaults.shipped).getD
    Record.empty

/-- Properties that hold all those of a revision, each with its own value or with what the new stack
ships for it under the service of the revision. -/
def Preserved (run : UpgradeRun) (s : Store) (r : Revision) (type : String) (p : Properties) : Prop :=
  ∀ key value, r.properties.get? key = some value →
    ∃ v, p.get? key = some v ∧ (v = value ∨ (shippedFor run s r.service type).get? key = some v)

/-- Every current property of one store is current in another. -/
def KeepsLive (run : UpgradeRun) (s s' : Store) : Prop :=
  ∀ type r, s.currentRevision? type = some r → ∀ key value, r.properties.get? key = some value →
    ∃ r' v, s'.currentRevision? type = some r' ∧ r'.properties.get? key = some v ∧
      (v = value ∨ (shippedFor run s r.service type).get? key = some v)

/-- The last of several services that takes a type. -/
def lastTaker? (run : UpgradeRun) (s : Store) (services : List String) (type : String) :
    Option String := (services.filter fun service => takes run s service type).getLast?

/-- A type that comes to no harm: no service but its own takes it, or the last one that takes it
ships what preserves it. -/
def Spared (run : UpgradeRun) (s : Store) (r : Revision) (type : String) : Prop :=
  (∀ x ∈ run.services, takes run s x type → x = r.service) ∨
    ∃ x, lastTaker? run s run.services type = some x ∧
      Preserved run s r type (shippedFor run s x type)

theorem preserved_iff {p : Properties} : Preserved run s r type p ↔
    ∀ e ∈ r.properties.entries, (p.get? e.1).any fun v =>
      v = e.2 ∨ (shippedFor run s r.service type).get? e.1 = some v := by
  simp only [Option.any_eq_true, decide_eq_true_iff]
  constructor
  · rintro h ⟨key, value⟩ mem
    exact h key value (Record.get?_eq_some_iff.2 mem)
  · intro h key value hvalue
    exact h (key, value) (Record.get?_eq_some_iff.1 hvalue)

instance (p : Properties) : Decidable (Preserved run s r type p) :=
  decidable_of_iff _ preserved_iff.symm

theorem spared_iff : Spared run s r type ↔
    (∀ x ∈ run.services, takes run s x type → x = r.service) ∨
      (lastTaker? run s run.services type).any fun x =>
        Preserved run s r type (shippedFor run s x type) := by
  simp only [Spared, Option.any_eq_true, decide_eq_true_iff]

instance : Decidable (Spared run s r type) := decidable_of_iff _ spared_iff.symm

theorem shippedFor_congr (h : s.defaults = s'.defaults) :
    shippedFor run s service type = shippedFor run s' service type := by
  simp only [shippedFor, defaultsOf_congr h]

theorem shippedFor_eq (accounted : Accounted run options before c) {new : DefaultsByType}
    (hnew : s.defaultsOf c.target c.service = .ok new) :
    shippedFor run s c.service type = ((new.get? type).map Defaults.shipped).getD Record.empty := by
  obtain ⟨w, hw, htarget⟩ := accounted.target
  simp only [shippedFor, hw, Option.getD_some]
  rw [← htarget, hnew]
  rfl

theorem lastTaker?_append (x : String) : lastTaker? run s (done ++ [x]) type =
    if takes run s x type then some x else lastTaker? run s done type := by
  unfold lastTaker?
  rw [List.filter_append]
  by_cases h : takes run s x type = true
  · rw [if_pos h, List.filter_cons_of_pos (by simpa using h), List.filter_nil, List.getLast?_concat]
  · rw [if_neg h, List.filter_cons_of_neg (by simpa using h), List.filter_nil, List.append_nil]

theorem mem_of_lastTaker? {x : String} (h : lastTaker? run s done type = some x) : x ∈ done :=
  List.mem_of_mem_filter (List.mem_of_getLast? h)

/-- Either no other service has taken a type, or one has. -/
theorem own_or_other (run : UpgradeRun) (s : Store) (r : Revision) (type : String)
    (done : List String) : (∀ x ∈ done, takes run s x type → x = r.service) ∨
      ∃ x ∈ done, takes run s x type ∧ x ≠ r.service := by
  by_cases lost : ∃ x ∈ done, takes run s x type ∧ x ≠ r.service
  · exact Or.inr lost
  · left
    intro x mem taken
    by_contra other
    exact lost ⟨x, mem, taken, other⟩

/-! ## One service -/

section Turn

variable (up : run.direction = .upgrade) (real : options.dryRun = false)
  (h : Writes options c s s') (accounted : Accounted run options before c)
  (hr : s.currentRevision? type = some r)

include up real h accounted hr

/-- A service leaves a type of another one alone that it does not take. -/
theorem Writes.leaves (differs : c.service ≠ r.service)
    (not_taken : takes run s c.service type = false) : s'.currentRevision? type = some r := by
  rcases h.merge_of_upgrade up real accounted with ⟨-, rfl⟩ | ⟨crosses, old, new, hnew, rfl⟩
  · exact hr
  · apply Store.currentRevision?_createRevisions_of_none hr
    rw [takes_of_accounted accounted, hnew] at not_taken
    rcases eq_or_ne type recordName with reserved | writable
    · rw [reserved]
      exact Merge.get?_configs_recordName
    · have unlisted : new.get? type = none := by
        rw [← Record.has_eq_false_iff]
        simpa [crosses, Merge.isWritable_iff.2 writable, Except.toOption] using not_taken
      rw [Merge.get?_configs_of_not_live (Store.not_live_of_owned hr differs) writable,
        unlisted]
      rfl

/-- A type that another service takes has what is shipped for that service. -/
theorem Writes.hands_over (versioned : s'.WellVersioned) (differs : c.service ≠ r.service)
    (taken : takes run s c.service type = true) : ∃ r', s'.currentRevision? type = some r' ∧
      r'.service = c.service ∧ r'.properties = shippedFor run s c.service type := by
  rcases h.merge_of_upgrade up real accounted with ⟨same, -⟩ | ⟨crosses, old, new, hnew, rfl⟩
  · rw [takes_of_accounted accounted, same] at taken
    simp at taken
  · rw [shippedFor_eq accounted hnew]
    rw [takes_of_accounted accounted, hnew] at taken
    simp only [Bool.and_eq_true, Except.toOption, Option.any_some] at taken
    obtain ⟨d, hd⟩ := Record.has_iff.1 taken.2
    refine Store.exists_currentRevision_createRevisions versioned ?_ taken.1.2
    rw [Merge.get?_configs_of_not_live (Store.not_live_of_owned hr differs)
      (Merge.isWritable_iff.1 taken.1.2), hd]
    rfl

/-- A type that its own service comes to is preserved. -/
theorem Writes.preserves (versioned : s'.WellVersioned) (owner : c.service = r.service)
    (named : r.properties.get? recordName = none) : ∃ r', s'.currentRevision? type = some r' ∧
      r'.service = r.service ∧ Preserved run s r type r'.properties := by
  have same_preserved : Preserved run s r type r.properties :=
    fun key value hvalue => ⟨value, hvalue, Or.inl rfl⟩
  rcases h.merge_of_upgrade up real accounted with ⟨-, rfl⟩ | ⟨-, old, new, hnew, rfl⟩
  · exact ⟨r, hr, rfl, same_preserved⟩
  · rcases eq_or_ne type recordName with reserved | writable
    · refine ⟨r, Store.currentRevision?_createRevisions_of_none hr ?_, rfl, same_preserved⟩
      rw [reserved]
      exact Merge.get?_configs_recordName
    · let input : MergeInput := ⟨old, new, s.liveConfig c.service⟩
      let config : LiveConfig := ⟨type, r.tag, r.properties⟩
      have live : config ∈ input.live :=
        Store.mem_liveConfig_iff.2 (Store.liveAs?_eq_some_iff.2 ⟨r, hr, owner.symm, rfl⟩)
      have merged :
          (Merge.of input).configs.get? config.type = some (Merge.mergedLive input config) :=
        Merge.get?_configs_of_live Store.nodup_liveConfig live writable
      obtain ⟨r', hr', hservice, hproperties⟩ :=
        Store.exists_currentRevision_createRevisions versioned merged
          (Merge.isWritable_iff.2 writable)
      refine ⟨r', hr', hservice.trans owner, ?_⟩
      intro key value hvalue
      have key_writable : key ≠ recordName := by
        rintro rfl
        rw [named] at hvalue
        cases hvalue
      have keeps : ∃ v, (Merge.mergedLive input config).get? key = some v ∧ _ :=
        Merge.mergedLive_keeps key_writable hvalue
      obtain ⟨v, hv, origin⟩ := keeps
      refine ⟨v, by rw [hproperties, hv], origin.imp_right ?_⟩
      rintro ⟨d, hd, hv⟩
      rw [← owner, shippedFor_eq accounted hnew, hd]
      exact hv

end Turn

/-! ## All services -/

/-- What has become of a type once some services are done. -/
structure Disposed (run : UpgradeRun) (s : Store) (r : Revision) (type : String)
    (done : List String) (s' : Store) : Prop where
  /-- As long as no other service has taken it, it is preserved, and before its own service comes to
  it nothing has changed. -/
  own : (∀ x ∈ done, takes run s x type → x = r.service) → ∃ r', s'.currentRevision? type = some r' ∧
    r'.service = r.service ∧ Preserved run s r type r'.properties ∧
    (r.service ∉ done → r' = r)
  /-- Otherwise the last service that has taken it has it, as it is shipped. -/
  other : (∃ x ∈ done, takes run s x type ∧ x ≠ r.service) → ∃ x r',
    lastTaker? run s done type = some x ∧ s'.currentRevision? type = some r' ∧
    r'.service = x ∧ r'.properties = shippedFor run s x type

theorem Disposed.start (hr : s.currentRevision? type = some r) : Disposed run s r type [] s where
  own := fun _ => ⟨r, hr, rfl, fun _ value hvalue => ⟨value, hvalue, Or.inl rfl⟩, fun _ => rfl⟩
  other := by
    rintro ⟨x, mem, -⟩
    cases mem

section Step

variable (up : run.direction = .upgrade) (real : options.dryRun = false)
  (same : s₁.defaults = s.defaults) (writes : Writes options c s₁ s₂)
  (accounted : Accounted run options before c)

include up real same writes accounted

/-- The service of a type comes to it before any other has taken it. -/
theorem Disposed.step_owner (h : Disposed run s r type done s₁) (versioned : s₂.WellVersioned)
    (named : r.properties.get? recordName = none) (owner : c.service = r.service)
    (later : c.service ∉ done) (none_other : ∀ x ∈ done, takes run s x type → x = r.service) :
    Disposed run s r type (done ++ [c.service]) s₂ := by
  obtain ⟨r₁, hr₁, -, -, untouched⟩ := h.own none_other
  obtain rfl := untouched (owner ▸ later)
  obtain ⟨r₂, hr₂, hservice, preserved⟩ :=
    writes.preserves up real accounted hr₁ versioned owner named
  refine ⟨fun _ => ⟨r₂, hr₂, hservice, ?_, ?_⟩, ?_⟩
  · unfold Preserved at preserved
    rwa [shippedFor_congr same] at preserved
  · intro absent
    exact absurd (List.mem_append_right _ (List.mem_singleton.2 owner.symm)) absent
  · rintro ⟨x, mem, taken, other⟩
    rcases List.mem_append.1 mem with mem | mem
    · exact absurd (none_other x mem taken) other
    · exact absurd ((List.mem_singleton.1 mem).trans owner) other

variable {r₁ : Revision} (hr₁ : s₁.currentRevision? type = some r₁)
  (differs : c.service ≠ r₁.service)

include hr₁ differs

/-- A service takes a type that is another's at its turn. -/
theorem Disposed.step_taken (versioned : s₂.WellVersioned)
    (taken : takes run s c.service type = true)
    (lost : ∃ x ∈ done ++ [c.service], takes run s x type ∧ x ≠ r.service) :
    Disposed run s r type (done ++ [c.service]) s₂ := by
  obtain ⟨r₂, hr₂, hservice, hproperties⟩ :=
    writes.hands_over up real accounted hr₁ versioned differs ((takes_congr same).trans taken)
  refine ⟨?_, fun _ => ?_⟩
  · intro none_other
    obtain ⟨x, mem, taken, other⟩ := lost
    exact absurd (none_other x mem taken) other
  · refine ⟨c.service, r₂, ?_, hr₂, hservice, hproperties.trans (shippedFor_congr same)⟩
    rw [lastTaker?_append, if_pos taken]

/-- A service leaves a type that is another's at its turn. -/
theorem Disposed.step_left (h : Disposed run s r type done s₁)
    (not_taken : takes run s c.service type = false) :
    Disposed run s r type (done ++ [c.service]) s₂ := by
  have hr₂ := writes.leaves up real accounted hr₁ differs ((takes_congr same).trans not_taken)
  refine ⟨?_, ?_⟩
  · intro none_other
    obtain ⟨r', hr', hservice, preserved, untouched⟩ :=
      h.own fun x mem => none_other x (List.mem_append_left _ mem)
    obtain rfl := Option.some.inj (hr'.symm.trans hr₁)
    refine ⟨r', hr₂, hservice, preserved, ?_⟩
    intro absent
    exact untouched fun mem => absent (List.mem_append_left _ mem)
  · rintro ⟨x, mem, taken, other⟩
    rcases List.mem_append.1 mem with mem | mem
    · obtain ⟨y, r', hlast, hr', hservice, hproperties⟩ := h.other ⟨x, mem, taken, other⟩
      obtain rfl := Option.some.inj (hr'.symm.trans hr₁)
      refine ⟨y, r', ?_, hr₂, hservice, hproperties⟩
      rw [lastTaker?_append, not_taken, if_neg Bool.false_ne_true]
      exact hlast
    · rw [List.mem_singleton.1 mem, not_taken] at taken
      cases taken

end Step

theorem Disposed.step (up : run.direction = .upgrade) (real : options.dryRun = false)
    (named : r.properties.get? recordName = none) (h : Disposed run s r type done s₁)
    (same : s₁.defaults = s.defaults) (writes : Writes options c s₁ s₂)
    (accounted : Accounted run options before c) (versioned : s₂.WellVersioned)
    (later : c.service ∉ done) :
    Disposed run s r type (done ++ [c.service]) s₂ := by
  rcases own_or_other run s r type done with none_other | lost
  · obtain ⟨r₁, hr₁, hservice, -⟩ := h.own none_other
    by_cases owner : c.service = r.service
    · exact h.step_owner up real same writes accounted versioned named owner later none_other
    · have differs : c.service ≠ r₁.service := by rwa [hservice]
      cases taken : takes run s c.service type with
      | true =>
        exact .step_taken up real same writes accounted hr₁ differs versioned taken
          ⟨c.service, by simp, taken, owner⟩
      | false => exact h.step_left up real same writes accounted hr₁ differs taken
  -- The last taker has been visited, so it is not the service whose turn it is. The owner itself may
  -- take its type back.
  · obtain ⟨x, r₁, hlast, hr₁, rfl, -⟩ := h.other lost
    have differs : c.service ≠ r₁.service := by
      intro revisited
      exact later (revisited ▸ mem_of_lastTaker? hlast)
    cases taken : takes run s c.service type with
    | true =>
      obtain ⟨x, mem, htaken, other⟩ := lost
      exact .step_taken up real same writes accounted hr₁ differs versioned taken
        ⟨x, List.mem_append_left _ mem, htaken, other⟩
    | false => exact h.step_left up real same writes accounted hr₁ differs taken

/-- What becomes of a type in a whole upgrade. -/
theorem WritesAll.disposed (up : run.direction = .upgrade) (real : options.dryRun = false)
    (h : WritesAll options cs s s') (services : cs.map (·.service) = run.services)
    (accounted : ∀ done c rest, cs = done ++ c :: rest →
      Accounted run options (done.map (·.service)) c)
    (versioned : s'.WellVersioned) (hr : s.currentRevision? type = some r)
    (named : r.properties.get? recordName = none) : Disposed run s r type run.services s' := by
  rw [← services]
  refine h.turns (P := fun done s' => Disposed run s r type (done.map (·.service)) s')
    (.start hr) ?_
  intro done c rest s₁ s₂ hdone same writes grown disposed
  rw [List.map_append, List.map_singleton]
  exact disposed.step up real named same writes (accounted done c rest hdone)
    (versioned.of_prefix grown) (not_mem_done services hdone)

/-- An upgrade of a store whose versions stay told apart keeps what is live exactly when every type
is spared. -/
theorem keepsLive_iff (up : run.direction = .upgrade) (real : options.dryRun = false)
    (heval : eval (steps run options) s = .ok (cs, s')) (versioned : s'.WellVersioned)
    (named : ∀ type r, s.currentRevision? type = some r → r.properties.get? recordName = none) :
    KeepsLive run s s' ↔ ∀ type r, s.currentRevision? type = some r → Spared run s r type := by
  obtain ⟨services, writes, accounted⟩ := eval_steps_eq_ok heval
  have disposed {type : String} {r : Revision} (hr : s.currentRevision? type = some r) :=
    writes.disposed up real services accounted versioned hr (named type r hr)
  constructor
  · intro keeps type r hr
    rcases own_or_other run s r type run.services with none_other | lost
    · exact Or.inl none_other
    · obtain ⟨x, r', hlast, hr', -, hproperties⟩ := (disposed hr).other lost
      refine Or.inr ⟨x, hlast, ?_⟩
      intro key value hvalue
      obtain ⟨r'', v, hr'', hv, origin⟩ := keeps type r hr key value hvalue
      obtain rfl := Option.some.inj (hr'.symm.trans hr'')
      exact ⟨v, hproperties ▸ hv, origin⟩
  · intro spared type r hr key value hvalue
    rcases own_or_other run s r type run.services with none_other | lost
    · obtain ⟨r', hr', -, preserved, -⟩ := (disposed hr).own none_other
      obtain ⟨v, hv, origin⟩ := preserved key value hvalue
      exact ⟨r', v, hr', hv, origin⟩
    · obtain ⟨x, r', hlast, hr', -, hproperties⟩ := (disposed hr).other lost
      rcases spared type r hr with none_other | ⟨y, hlast', preserved⟩
      · obtain ⟨y, mem, taken, other⟩ := lost
        exact absurd (none_other y mem taken) other
      · obtain rfl := Option.some.inj (hlast.symm.trans hlast')
        obtain ⟨v, hv, origin⟩ := preserved key value hvalue
        exact ⟨r', v, hr', hproperties ▸ hv, origin⟩

/-- **What an upgrade keeps.** An upgrade of a described cluster that succeeds keeps every live
property, with its value or with what the new stack ships for it under its own service, exactly when
every configuration is spared, which is seen from the description. -/
theorem upgrade_keeps_live_iff {t : Topology} (accepted : t.Accepted) (run : UpgradeRun)
    (options : ReconcileOptions) (up : run.direction = .upgrade) (real : options.dryRun = false)
    (succeeds : ((reconcile run options).run t.store).result = .ok cs)
    (few : ((reconcile run options).run t.store).store.revisions.length < Number.powerOfTwo 53) :
    KeepsLive run t.store ((reconcile run options).run t.store).store ↔
      ∀ r ∈ t.revisions, Spared run t.store r r.type := by
  have sound := accepted.toSound
  obtain ⟨copyable, s', heval⟩ := result_eq_ok_iff.1 succeeds
  have hstore : ((reconcile run options).run t.store).store = s' :=
    (transaction_of_eval_ok copyable heval).2
  have start : Store.Grown t t.store := ⟨List.prefix_refl _, fun _ => .start sound⟩
  have after := (Store.numbered_stable t).call (.reconcile run options) t.store start
  obtain ⟨grown, numbered⟩ : Store.Grown t ((reconcile run options).run t.store).store := after
  have versioned := (numbered few).wellVersioned few
  have fewer : t.revisions.length < Number.powerOfTwo 53 :=
    Nat.lt_of_le_of_lt grown.length_le few
  rw [hstore] at versioned ⊢
  have current {type : String} {r : Revision} :
      t.store.currentRevision? type = some r ↔ r ∈ t.revisions ∧ r.type = type :=
    Store.currentRevision?_eq_some_iff sound fewer
  have named : ∀ type r, t.store.currentRevision? type = some r →
      r.properties.get? recordName = none :=
    fun type r hr => accepted.properties_of_mem (current.1 hr).1
  rw [keepsLive_iff up real heval versioned named]
  constructor
  · intro spared r mem
    exact spared r.type r (current.2 ⟨mem, rfl⟩)
  · intro spared type r hr
    obtain ⟨mem, rfl⟩ := current.1 hr
    exact spared r mem

/-- The first service takes a type of the second one, but has the same default there. -/
theorem upgrade_keeps_live_on_shipped :
    let shipped : Topology := { Topology.sharedSite with
      stackDefaults := .ofList [("HDP-2.2", .empty), ("HDP-2.3", .ofList
        [("ZOOKEEPER", .ofList [("hdfs-site", .ofList [("dfs.replication", some "2")])]),
          ("HDFS", .ofList [("hdfs-site", .ofList [("dfs.replication", some "2")])])])] }
    ∃ run cs, shipped.run ⟨.upgrade, .rolling, none, "2.3.0.0", none⟩ = .ok run ∧
      let options : ReconcileOptions := ⟨"admin", "upgrade", .allServices, false⟩
      let o := (reconcile run options).run shipped.store
      o.result = .ok cs ∧ shipped.Accepted ∧ run.direction = .upgrade ∧
      o.store.revisions.length < Number.powerOfTwo 53 ∧
      taken run shipped.store ["ZOOKEEPER"] "hdfs-site" ∧ KeepsLive run shipped.store o.store := by
  refine ⟨_, _, rfl, rfl, ⟨⟨by decide, by decide, by decide, by decide⟩, by decide⟩, rfl, by decide,
    by decide, ?_⟩
  exact (upgrade_keeps_live_iff ⟨⟨by decide, by decide, by decide, by decide⟩, by decide⟩ _ _
    (by rfl) (by rfl) (by rfl) (by decide)).2 (by decide)

/-- A service that takes the type of another one loses what was live there. -/
theorem upgrade_loses_live : ∃ run cs,
    Topology.sharedSite.run ⟨.upgrade, .rolling, none, "2.3.0.0", none⟩ = .ok run ∧
    let options : ReconcileOptions := ⟨"admin", "upgrade", .allServices, false⟩
    let o := (reconcile run options).run Topology.sharedSite.store
    o.result = .ok cs ∧ ¬ KeepsLive run Topology.sharedSite.store o.store := by
  refine ⟨_, _, rfl, rfl, ?_⟩
  intro keeps
  obtain ⟨r', v, hr', hv, -⟩ := keeps "hdfs-site" _ rfl "dfs.replication" "3" (by decide)
  obtain rfl := Option.some.inj hr'
  have gone : none = some v := hv
  cases gone

end Reconcile

end ClusterUpgrade
