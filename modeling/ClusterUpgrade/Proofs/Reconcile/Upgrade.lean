import ClusterUpgrade.Proofs.Reconcile.Outcome
import ClusterUpgrade.Proofs.Versions

/-!
# What an upgrade writes

Every merge of an upgrade drafts a revision for each of its types. The drafts are added one after
the other, and each gets the version that the store has next at that time: they count on from the
highest version before the run (`foldl_add_eq`). Nothing else is written. `upgrade_writes` is the
whole statement.
-/

namespace ClusterUpgrade

/-! ## Drafts -/

/-- A configuration that is to become a revision. -/
structure Draft where
  type : String
  service : String
  stack : StackId
  properties : Properties

/-- The revision that a draft becomes under a version. -/
def Draft.revision (options : ReconcileOptions) (d : Draft) (version : Number) : Revision where
  type := d.type
  service := d.service
  stack := d.stack.text
  tag := "version" ++ version.text
  version
  properties := d.properties
  actor := some options.actor
  comment := some options.comment

/-- Revisions of drafts whose versions follow one another, the first one a given version. -/
def numbered (options : ReconcileOptions) : (last : Number) → List Draft → List Revision
  | _, [] => []
  | last, d :: rest => d.revision options last.successor :: numbered options last.successor rest

variable {options : ReconcileOptions}

theorem length_numbered (last : Number) (ds : List Draft) :
    (numbered options last ds).length = ds.length := by
  induction ds generalizing last with
  | nil => rfl
  | cons d rest ih => rw [numbered, List.length_cons, List.length_cons, ih]

theorem numbered_congr {a b : Number} (h : a.successor = b.successor) (ds : List Draft) :
    numbered options a ds = numbered options b ds := by
  cases ds with
  | nil => rfl
  | cons d rest => rw [numbered, numbered, h]

/-- As long as counting is exact, versions that follow a natural number are the next ones. -/
theorem map_version_numbered {k : Nat} {ds : List Draft}
    (h : k + ds.length ≤ Number.powerOfTwo 53) :
    (numbered options (.ofNat k) ds).map (·.version) =
      (List.range' (k + 1) ds.length).map Number.ofNat := by
  induction ds generalizing k with
  | nil => rfl
  | cons d rest ih =>
    rw [List.length_cons] at h
    have exact_step : (Number.ofNat k).successor = .ofNat (k + 1) := by
      apply Number.successor_ofNat
      show k < 2 * Number.powerOfTwo 52
      have : Number.powerOfTwo 53 = 2 * Number.powerOfTwo 52 := rfl
      omega
    rw [numbered, exact_step, List.map_cons, ih (by omega), List.length_cons, List.range'_succ,
      List.map_cons]
    rfl

namespace Store

variable {s : Store}

/-- Adds the revision of a draft. -/
def add (options : ReconcileOptions) (s : Store) (d : Draft) : Store :=
  s.addRevision d.stack d.service d.type d.properties options.actor options.comment

theorem highestVersion_add (d : Draft) : (s.add options d).highestVersion =
    s.highestVersion.larger s.highestVersion.successor := by
  show (s.revisions ++ [_]).foldl _ _ = _
  rw [List.foldl_append]
  rfl

/-- Drafts that are added become revisions that count on from the highest version, and each becomes
current. Nothing else changes. -/
theorem foldl_add_eq {ds : List Draft} (writable : ∀ d ∈ ds, Reserved.isWritable d.type = true) :
    ds.foldl (add options) s =
      { s with
        revisions := s.revisions ++ numbered options s.highestVersion ds
        current := (numbered options s.highestVersion ds).foldl
          (fun current r => current.insert r.type r.version) s.current } := by
  induction ds generalizing s with
  | nil =>
    show s = { s with revisions := s.revisions ++ [], current := s.current }
    rw [List.append_nil]
  | cons d rest ih =>
    rw [List.forall_mem_cons] at writable
    -- The draft's version need not be above the highest one, but counting on is the same from both.
    have next := Number.successor_larger_successor s.isUnsigned_highestVersion
    have written (v : Number) : Reserved.write s.current d.type v = s.current.insert d.type v :=
      Reserved.write_of_takes (Reserved.takes_of_isWritable writable.1 _) v
    rw [List.foldl_cons, ih writable.2, highestVersion_add, numbered_congr next]
    show Store.mk _ _ _ _ ((s.revisions ++ [_]) ++ _) (List.foldl _ (Reserved.write _ _ _) _) _ _ _
      = _
    rw [List.append_assoc, written]
    rfl

theorem createRevisions_eq (target : StackId) (service : String) (configs : PropertiesByType) :
    s.createRevisions target service configs options.actor options.comment =
      (configs.entries.map fun e => ⟨e.1, service, target, e.2⟩).foldl (add options) s := by
  rw [List.foldl_map]
  rfl

end Store

namespace Reconcile

open Operation

variable {run : UpgradeRun} {s s' : Store} {cs : List ServiceChange}

/-- What a change drafts: the types of its merge, in order. -/
def drafts (c : ServiceChange) : List Draft :=
  match c.change.merge? with
  | none => []
  | some m => m.configs.entries.map fun e => ⟨e.1, c.service, c.target, e.2⟩

/-- The drafts of all changes. A dry run makes none. -/
def draftsOf (options : ReconcileOptions) (cs : List ServiceChange) : List Draft :=
  if options.dryRun then [] else cs.flatMap drafts

theorem draftsOf_cons (c : ServiceChange) (cs : List ServiceChange) :
    draftsOf options (c :: cs) = draftsOf options [c] ++ draftsOf options cs := by
  unfold draftsOf
  split
  · rfl
  · rw [List.flatMap_cons, List.flatMap_singleton]

/-- A change that reverts nothing adds its drafts. -/
theorem Writes.eq_foldl_add {c : ServiceChange} (h : Writes options c s s')
    (kept : c.change ≠ .reverted) : s' = (draftsOf options [c]).foldl (Store.add options) s := by
  unfold Writes at h
  unfold draftsOf
  rw [List.flatMap_singleton, drafts]
  cases hc : c.change with
  | unchanged | notProcessed =>
    rw [hc] at h
    simpa [ConfigChange.merge?] using h
  | reverted => exact absurd hc kept
  | merged m =>
    rw [hc] at h
    obtain ⟨-, rfl⟩ := h
    split
    · rfl
    · exact Store.createRevisions_eq _ _ _

theorem WritesAll.eq_foldl_add (h : WritesAll options cs s s')
    (kept : ∀ c ∈ cs, c.change ≠ .reverted) :
    s' = (draftsOf options cs).foldl (Store.add options) s := by
  induction cs generalizing s with
  | nil =>
    obtain rfl := h
    unfold draftsOf
    split <;> rfl
  | cons c rest ih =>
    obtain ⟨mid, writes, hrest⟩ := h
    rw [draftsOf_cons, List.foldl_append, ← writes.eq_foldl_add (kept c List.mem_cons_self)]
    exact ih hrest fun d hd => kept d (List.mem_cons_of_mem _ hd)

/-- No draft is of a type under whose name nothing can be written. -/
theorem WritesAll.isWritable (h : WritesAll options cs s s') {d : Draft}
    (mem : d ∈ draftsOf options cs) : Reserved.isWritable d.type = true := by
  induction cs generalizing s with
  | nil => simp [draftsOf] at mem
  | cons c rest ih =>
    obtain ⟨mid, writes, hrest⟩ := h
    rw [draftsOf_cons, List.mem_append] at mem
    rcases mem with mem | mem
    · rw [draftsOf, List.flatMap_singleton, drafts] at mem
      cases hc : c.change with
      | unchanged | reverted | notProcessed => simp [hc, ConfigChange.merge?] at mem
      | merged m =>
        rw [Writes, hc] at writes
        rw [hc] at mem
        split at mem
        · cases mem
        · obtain ⟨e, he, rfl⟩ := List.mem_map.1 mem
          exact isWritable_of_mergeOf writes.1 he
    · exact ih hrest mem

/-- **What an upgrade writes.** An upgrade that succeeds adds a revision for every type of its
merges, in the order of the services and of the types. The versions follow one another from the
highest version before, or from zero; as long as counting is exact they are the next natural
numbers. A type is current in its last new revision, or else as it was. Nothing else changes. -/
theorem upgrade_writes (run : UpgradeRun) (options : ReconcileOptions) (s : Store)
    (up : run.direction = .upgrade) (h : ((reconcile run options).run s).result = .ok cs) :
    let s' := ((reconcile run options).run s).store
    let new := numbered options s.highestVersion (draftsOf options cs)
    s'.revisions = s.revisions ++ new ∧
    (∀ type, s'.current.get? type =
      ((new.filter fun r => r.type = type).getLast?.map (·.version)).or (s.current.get? type)) ∧
    s' = { s with revisions := s'.revisions, current := s'.current } ∧
    ∀ k, s.highestVersion = .ofNat k → k + new.length ≤ Number.powerOfTwo 53 →
      new.map (·.version) = (List.range' (k + 1) new.length).map Number.ofNat := by
  intro s' new
  obtain ⟨copyable, after, heval⟩ := result_eq_ok_iff.1 h
  have hstore : s' = after := (transaction_of_eval_ok copyable heval).2
  obtain ⟨-, writes, accounted⟩ := eval_steps_eq_ok heval
  have kept : ∀ c ∈ cs, c.change ≠ .reverted := by
    intro c mem hc
    obtain ⟨done, rest, hcs⟩ := List.append_of_mem mem
    have down := ((accounted done c rest hcs).reverted_iff.1 hc).2.2
    rw [up] at down
    cases down
  have hs' : s' = (draftsOf options cs).foldl (Store.add options) s :=
    hstore.trans (writes.eq_foldl_add kept)
  rw [Store.foldl_add_eq fun d => writes.isWritable] at hs'
  rw [hs']
  refine ⟨rfl, ?_, rfl, ?_⟩
  · intro type
    exact Record.get?_foldl_insert Revision.type Revision.version new s.current type
  · intro k hk few
    have length : new.length = (draftsOf options cs).length := length_numbered _ _
    rw [length] at few ⊢
    show (numbered options s.highestVersion _).map _ = _
    rw [hk, map_version_numbered few]

/-- Two types are new for the first service and one is merged; the other service has lost its only
type by then. -/
theorem upgrade_writes_sharedSite : ∃ run cs,
    Topology.sharedSite.run ⟨.upgrade, .rolling, none, "2.3.0.0", none⟩ = .ok run ∧
    let options : ReconcileOptions := ⟨"admin", "upgrade", .allServices, false⟩
    let s := Topology.sharedSite.store
    let o := (reconcile run options).run s
    let new := numbered options s.highestVersion (draftsOf options cs)
    run.direction = .upgrade ∧ o.result = .ok cs ∧
    new.map (·.type) = ["zookeeper-logs", "hdfs-site", "zoo.cfg"] ∧
    new.map (·.version) = [.ofNat 3, .ofNat 4, .ofNat 5] ∧
    o.store.revisions = s.revisions ++ new ∧
    ∀ type, o.store.current.get? type =
      ((new.filter fun r => r.type = type).getLast?.map (·.version)).or (s.current.get? type) := by
  refine ⟨_, _, rfl, rfl, rfl, by decide, by decide, ?_, ?_⟩
  · exact (upgrade_writes _ _ _ (by rfl) (by rfl)).1
  · exact (upgrade_writes _ _ _ (by rfl) (by rfl)).2.1

end Reconcile

end ClusterUpgrade
