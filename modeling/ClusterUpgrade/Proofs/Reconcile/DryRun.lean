import ClusterUpgrade.Proofs.Reconcile.Turn
import ClusterUpgrade.Proofs.Topology

/-!
# Dry runs

A dry run leaves the store as it is, so it sees neither a write that is refused nor what one service
takes from another. `dryRun_agrees_iff` says when it comes to what the run itself comes to: when the
run is not stopped by missing revisions, and every merge is the one that the first store calls for.
`Foreseen` says the same of the first store alone.
-/

namespace ClusterUpgrade.Reconcile

open Operation

variable {run : UpgradeRun} {options : ReconcileOptions} {s s' s'' : Store}
  {before services : List String} {service : String} {e : TransitionError} {c c' : ServiceChange}
  {cs cs' : List ServiceChange}

/-- The options of a dry run. -/
def dry (options : ReconcileOptions) : ReconcileOptions := { options with dryRun := true }

/-- The options of a run that writes. -/
def real (options : ReconcileOptions) : ReconcileOptions := { options with dryRun := false }

/-! ## Failures -/

theorem NoDefaults.ne_noRevisions {stack : StackId} {cause : StoreError}
    (h : NoDefaults s stack service cause) (x stack' : String) :
    (.refused cause : TransitionError) ≠ .refused (.noRevisions x stack') := by
  cases h <;> nofun

/-- The only obstacle that a dry run does not meet are missing revisions. -/
theorem obstacle_dry_iff : Obstacle run (dry options) s before service e ↔
    Obstacle run (real options) s before service e ∧
      ∀ x stack, e ≠ .refused (.noRevisions x stack) := by
  constructor
  · intro h
    cases h with
    | noSource hv => exact ⟨.noSource hv, nofun⟩
    | noTarget hv hw => exact ⟨.noTarget hv hw, nofun⟩
    | noSourceDefaults hv hw crosses up missing =>
      exact ⟨.noSourceDefaults hv hw crosses up missing, missing.ne_noRevisions⟩
    | noTargetDefaults hv hw crosses up there missing =>
      exact ⟨.noTargetDefaults hv hw crosses up there missing, missing.ne_noRevisions⟩
    | noRevisions _ _ _ _ wet => cases wet
  · rintro ⟨h, other⟩
    cases h with
    | noSource hv => exact .noSource hv
    | noTarget hv hw => exact .noTarget hv hw
    | noSourceDefaults hv hw crosses up missing => exact .noSourceDefaults hv hw crosses up missing
    | noTargetDefaults hv hw crosses up there missing =>
      exact .noTargetDefaults hv hw crosses up there missing
    | noRevisions => exact absurd rfl (other _ _)

theorem firstObstacle_dry (h : FirstObstacle run (real options) s before services e)
    (other : ∀ x stack, e ≠ .refused (.noRevisions x stack)) :
    FirstObstacle run (dry options) s before services e := by
  obtain ⟨passed, x, rest, hservices, obstacle, first⟩ := h
  refine ⟨passed, x, rest, hservices, obstacle_dry_iff.2 ⟨obstacle, other⟩, ?_⟩
  intro passed' x' rest' hpassed e' obstacle'
  exact first passed' x' rest' hpassed e' (obstacle_dry_iff.1 obstacle').1

/-- The only failure that a dry run does not meet are missing revisions. -/
theorem failure_dry (other : ∀ x stack, e ≠ .refused (.noRevisions x stack))
    (h : Failure run (real options) s e) : Failure run (dry options) s e := by
  unfold Failure at h ⊢
  split at h
  · exact h
  · exact firstObstacle_dry h other

theorem not_failure_dry {x stack : String} :
    ¬ Failure run (dry options) s (.refused (.noRevisions x stack)) := by
  unfold Failure
  split
  · nofun
  · rintro ⟨_, _, _, _, obstacle, -⟩
    exact (obstacle_dry_iff.1 obstacle).2 x stack rfl

/-- Where a run succeeds, so does a dry run. -/
theorem exists_eval_dry (h : eval (steps run (real options)) s = .ok (cs, s')) :
    ∃ cs' s'', eval (steps run (dry options)) s = .ok (cs', s'') := by
  cases hdry : eval (steps run (dry options)) s with
  | ok p => exact ⟨p.1, p.2, rfl⟩
  | error e =>
    obtain ⟨passed, x, rest, hservices, obstacle, -⟩ := eval_steps_eq_error_iff.1 hdry
    obtain ⟨e', first⟩ := exists_firstObstacle_iff.2
      ⟨passed, x, rest, e, hservices, (obstacle_dry_iff.1 obstacle).1⟩
    rw [eval_steps_eq_error_iff.2 first] at h
    cases h

/-! ## Results -/

/-- A dry run writes nothing. -/
theorem WritesAll.eq_of_dry (h : WritesAll (dry options) cs s s') : s' = s := by
  refine h.induction (P := fun _ s' => s' = s) rfl ?_
  rintro done c rest s₁ s₂ - rfl writes
  unfold Writes dry at writes
  split at writes
  · exact writes
  · exact writes
  · exact writes
  · exact writes.2

/-- Every merge that is reported is the one that a store calls for. -/
def MergesOf (s : Store) (cs : List ServiceChange) : Prop :=
  ∀ c ∈ cs, ∀ m, c.change = .merged m → mergeOf c.source c.target c.service s = .ok m

theorem mergesOf_of_dry (h : WritesAll (dry options) cs s s') : MergesOf s cs := by
  intro c mem m hm
  obtain ⟨done, rest, rfl⟩ := List.append_of_mem mem
  obtain ⟨mid, next, hdone, writes, -⟩ := h.exists_turn
  obtain rfl := hdone.eq_of_dry
  unfold Writes at writes
  rw [hm] at writes
  exact writes.1

/-- Two accounts of a service differ in their merges at most. -/
theorem Accounted.eq (h : Accounted run (real options) before c)
    (h' : Accounted run (dry options) before c') (same : c.service = c'.service)
    (merges : c.source = c'.source → c.target = c'.target → ∀ m m', c.change = .merged m →
      c'.change = .merged m' → m = m') : c = c' := by
  have source : c.source = c'.source := by
    obtain ⟨v, hv, hsource⟩ := h.source
    rw [hsource, h'.source_eq (same ▸ hv)]
  have target : c.target = c'.target := by
    obtain ⟨w, hw, htarget⟩ := h.target
    rw [htarget, h'.target_eq (same ▸ hw)]
  have change : c.change = c'.change := by
    by_cases ended : Ended run options before
    · rw [h.notProcessed ended, h'.notProcessed ended]
    · by_cases stays : c.source = c.target
      · rw [h.unchanged ended stays, h'.unchanged ended (source ▸ target ▸ stays)]
      · have crosses : c'.source ≠ c'.target := source ▸ target ▸ stays
        cases hdir : run.direction with
        | downgrade => rw [h.reverted ended stays hdir, h'.reverted ended crosses hdir]
        | upgrade =>
          obtain ⟨m, hm⟩ := h.merged ended stays hdir
          obtain ⟨m', hm'⟩ := h'.merged ended crosses hdir
          rw [hm, hm', merges source target m m' hm hm']
  cases c
  cases c'
  rw [ServiceChange.mk.injEq]
  exact ⟨same, source, target, change⟩

/-- Lists over the same services are equal when they agree at each. -/
theorem eq_of_services (services : cs.map (·.service) = cs'.map (·.service))
    (agree : ∀ done c rest done' c' rest', cs = done ++ c :: rest → cs' = done' ++ c' :: rest' →
      done.map (·.service) = done'.map (·.service) → c.service = c'.service → c = c') :
    cs = cs' := by
  induction cs generalizing cs' with
  | nil => exact (List.map_eq_nil_iff.1 services.symm).symm
  | cons c rest ih =>
    obtain ⟨c', rest', rfl, hc, hrest⟩ := List.map_eq_cons_iff.1 services.symm
    obtain rfl := agree [] c rest [] c' rest' rfl rfl rfl hc.symm
    rw [List.cons.injEq]
    refine ⟨rfl, ih hrest.symm ?_⟩
    intro done d todo done' d' todo' h h' hdone hd
    refine agree (c :: done) d todo (c :: done') d' todo' ?_ ?_ ?_ hd
    · rw [h, List.cons_append]
    · rw [h', List.cons_append]
    · rw [List.map_cons, List.map_cons, hdone]

/-- When both succeed, a dry run gives the changes of the run exactly when the run merges as the
first store calls for. -/
theorem changes_eq_iff (hreal : eval (steps run (real options)) s = .ok (cs, s'))
    (hdry : eval (steps run (dry options)) s = .ok (cs', s'')) : cs' = cs ↔ MergesOf s cs := by
  obtain ⟨hservices, -, accounted⟩ := eval_steps_eq_ok hreal
  obtain ⟨hservices', writes', accounted'⟩ := eval_steps_eq_ok hdry
  have merges' := mergesOf_of_dry writes'
  constructor
  · rintro rfl
    exact merges'
  · intro merges
    symm
    refine eq_of_services (hservices.trans hservices'.symm) ?_
    intro done c rest done' c' rest' h h' hdone same
    have hc' := accounted' done' c' rest' h'
    rw [← hdone] at hc'
    refine (accounted done c rest h).eq hc' same ?_
    intro source target m m' hm hm'
    have hmerge := merges c (by simp [h]) m hm
    have hmerge' := merges' c' (by simp [h']) m' hm'
    rw [← source, ← target, ← same, hmerge] at hmerge'
    exact Except.ok.inj hmerge'

/-- A dry run leaves the store as it is. -/
theorem store_dry : ((reconcile run (dry options)).run s).store = s := by
  cases hresult : ((reconcile run (dry options)).run s).result with
  | error e => exact store_transaction_of_error hresult
  | ok cs =>
    obtain ⟨copyable, s', hdry⟩ := result_eq_ok_iff.1 hresult
    obtain ⟨-, writes, -⟩ := eval_steps_eq_ok hdry
    exact (transaction_of_eval_ok copyable hdry).2.trans writes.eq_of_dry

/-- A dry run comes to what the run comes to exactly when the run does not fail for missing
revisions and merges as the first store calls for. -/
theorem result_dry_eq_iff : ((reconcile run (dry options)).run s).result =
    ((reconcile run (real options)).run s).result ↔
      (∀ service stack, ((reconcile run (real options)).run s).result ≠
        .error (.refused (.noRevisions service stack))) ∧
      ∀ cs, ((reconcile run (real options)).run s).result = .ok cs → MergesOf s cs := by
  cases hreal : ((reconcile run (real options)).run s).result with
  | error e =>
    constructor
    · intro h
      refine ⟨?_, nofun⟩
      rintro service stack ⟨⟩
      exact not_failure_dry (result_eq_error_iff.1 h)
    · rintro ⟨other, -⟩
      refine result_eq_error_iff.2 (failure_dry ?_ (result_eq_error_iff.1 hreal))
      rintro service stack rfl
      exact other service stack rfl
  | ok cs =>
    obtain ⟨copyable, s', heval⟩ := result_eq_ok_iff.1 hreal
    obtain ⟨cs', s'', hdry⟩ := exists_eval_dry heval
    rw [result_eq_ok_iff.2 ⟨copyable, s'', hdry⟩, Except.ok.injEq, changes_eq_iff heval hdry]
    constructor
    · intro merges
      refine ⟨nofun, ?_⟩
      rintro cs ⟨⟩
      exact merges
    · rintro ⟨-, merges⟩
      exact merges cs rfl

/-! ## Judged on the first store -/

/-- What a service loses to earlier ones leaves no trace in its merge. -/
def LosesNothing (run : UpgradeRun) (s : Store) : Prop :=
  ∀ before service after, run.services = before ++ service :: after →
    ∀ v w old new, run.sources.get? service = some v → run.targets.get? service = some w →
      v.stackId ≠ w.stackId → s.defaultsOf v.stackId service = .ok old →
      s.defaultsOf w.stackId service = .ok new →
      ∀ x ∈ s.liveConfig service, taken run s before x.type →
        Merge.Untouched ⟨old, new, s.liveConfig service⟩ x

theorem mergeOf_at_turn (hreal : eval (steps run (real options)) s = .ok (cs, s'))
    (up : run.direction = .upgrade) (apart : s'.ToldApart) {done rest : List ServiceChange}
    {m : Merge} (h : cs = done ++ c :: rest) (hm : c.change = .merged m) :
    mergeOf c.source c.target c.service s = .ok m ↔
      ∀ old new, s.defaultsOf c.source c.service = .ok old →
        s.defaultsOf c.target c.service = .ok new →
        ∀ x ∈ s.liveConfig c.service, taken run s (done.map (·.service)) x.type →
          Merge.Untouched ⟨old, new, s.liveConfig c.service⟩ x := by
  obtain ⟨hservices, writes, accounted⟩ := eval_steps_eq_ok hreal
  have later := not_mem_done hservices h
  subst h
  obtain ⟨mid, next, hdone, hc, hrest⟩ := writes.exists_turn
  have apart_mid : mid.ToldApart :=
    apart.of_prefix (hc.prefix_revisions.trans hrest.prefix_revisions)
  have merge : mergeOf c.source c.target c.service mid = .ok m := by
    unfold Writes at hc
    rw [hm] at hc
    exact hc.1
  refine mergeOf_eq_iff up rfl hdone ?_ apart_mid later merge
  intro done' c' rest' h
  refine accounted done' c' (rest' ++ c :: rest) ?_
  rw [h, List.append_assoc, List.cons_append]

theorem mergesOf_iff (hreal : eval (steps run (real options)) s = .ok (cs, s'))
    (up : run.direction = .upgrade) (apart : s'.ToldApart) :
    MergesOf s cs ↔ LosesNothing run s := by
  obtain ⟨hservices, -, accounted⟩ := eval_steps_eq_ok hreal
  constructor
  · intro merges before service after hrun v w old new hv hw crosses hold hnew x hx lost
    rw [← hservices] at hrun
    obtain ⟨done, todo, rfl, rfl, htodo⟩ := List.map_eq_append_iff.1 hrun
    obtain ⟨c, rest, rfl, rfl, -⟩ := List.map_eq_cons_iff.1 htodo
    have hc := accounted done c rest rfl
    have hsource := hc.source_eq hv
    have htarget := hc.target_eq hw
    have differs : c.source ≠ c.target := by rwa [hsource, htarget]
    obtain ⟨m, hm⟩ := hc.merged (not_ended_of_upgrade up) differs up
    rw [← hsource] at hold
    rw [← htarget] at hnew
    exact (mergeOf_at_turn hreal up apart rfl hm).1 (merges c (by simp) m hm) old new hold hnew x hx
      lost
  · intro loses c mem m hm
    obtain ⟨done, rest, rfl⟩ := List.append_of_mem mem
    have hc := accounted done c rest rfl
    obtain ⟨v, hv, hsource⟩ := hc.source
    obtain ⟨w, hw, htarget⟩ := hc.target
    have crosses : v.stackId ≠ w.stackId := by
      intro same
      rw [hc.unchanged (not_ended_of_upgrade up) (by rw [hsource, htarget, same])] at hm
      cases hm
    rw [mergeOf_at_turn hreal up apart rfl hm]
    intro old new hold hnew
    rw [hsource] at hold
    rw [htarget] at hnew
    refine loses (done.map (·.service)) c.service (rest.map (·.service)) ?_ v w old new hv hw crosses
      hold hnew
    rw [← hservices, List.map_append, List.map_cons]

/-- On a downgrade nothing is merged. -/
theorem mergesOf_of_downgrade (hreal : eval (steps run (real options)) s = .ok (cs, s'))
    (down : run.direction = .downgrade) : MergesOf s cs := by
  obtain ⟨-, -, accounted⟩ := eval_steps_eq_ok hreal
  intro c mem m hm
  obtain ⟨done, rest, rfl⟩ := List.append_of_mem mem
  exact absurd hm ((accounted done c rest rfl).not_merged down m)

/-- When a dry run foresees what the run comes to, judged on the first store: the run does not fail
for missing revisions, and on an upgrade that succeeds no service loses what it would have merged.
-/
structure Foreseen (run : UpgradeRun) (options : ReconcileOptions) (s : Store) : Prop where
  revisions : ∀ service stack, ¬ Failure run (real options) s (.refused (.noRevisions service stack))
  merges : run.direction = .upgrade → (∀ e, ¬ Failure run (real options) s e) → LosesNothing run s

/-- As long as versions tell revisions apart, agreement is seen from the first store. -/
theorem foreseen_iff (apart : ((reconcile run (real options)).run s).store.ToldApart) :
    ((reconcile run (dry options)).run s).result = ((reconcile run (real options)).run s).result ↔
      Foreseen run options s := by
  rw [result_dry_eq_iff]
  constructor
  · rintro ⟨revisions, merges⟩
    refine ⟨fun service stack h => revisions service stack (result_eq_error_iff.2 h), ?_⟩
    intro up clear
    cases hreal : ((reconcile run (real options)).run s).result with
    | error e => exact absurd (result_eq_error_iff.1 hreal) (clear e)
    | ok cs =>
      obtain ⟨copyable, s', heval⟩ := result_eq_ok_iff.1 hreal
      rw [reconcile, (transaction_of_eval_ok copyable heval).2] at apart
      exact (mergesOf_iff heval up apart).1 (merges cs hreal)
  · rintro ⟨revisions, merges⟩
    refine ⟨fun service stack h => revisions service stack (result_eq_error_iff.1 h), ?_⟩
    intro cs hreal
    obtain ⟨copyable, s', heval⟩ := result_eq_ok_iff.1 hreal
    cases hdir : run.direction with
    | downgrade => exact mergesOf_of_downgrade heval hdir
    | upgrade =>
      rw [reconcile, (transaction_of_eval_ok copyable heval).2] at apart
      refine (mergesOf_iff heval hdir apart).2 (merges hdir ?_)
      intro e first
      rw [result_eq_error_iff.2 first] at hreal
      cases hreal

/-- **Dry runs.** A dry run leaves the store as it is. It comes to what the run itself comes to
exactly when the run does not fail for missing revisions and merges as the first store calls for. As
long as versions tell revisions apart, that is seen from the first store. -/
theorem dryRun_agrees_iff (run : UpgradeRun) (options : ReconcileOptions) (s : Store) :
    let o := (reconcile run (dry options)).run s
    let o' := (reconcile run (real options)).run s
    o.store = s ∧
    (o.result = o'.result ↔
      (∀ service stack, o'.result ≠ .error (.refused (.noRevisions service stack))) ∧
        ∀ cs, o'.result = .ok cs → MergesOf s cs) ∧
    (o'.store.ToldApart → (o.result = o'.result ↔ Foreseen run options s)) :=
  ⟨store_dry, result_dry_eq_iff, foreseen_iff⟩

/-- One service takes a type of the other, which has just what the new stack ships there. -/
theorem dryRun_agrees_on_shipped :
    let options : ReconcileOptions := ⟨"admin", "upgrade", .allServices, false⟩
    let shipped : Topology := { Topology.sharedSite with
      stackDefaults := .ofList [("HDP-2.2", .empty), ("HDP-2.3", .ofList
        [("ZOOKEEPER", .ofList [("hdfs-site", .empty)]),
          ("HDFS", .ofList [("hdfs-site", .ofList [("dfs.replication", some "3")])])])] }
    ∃ run, shipped.run ⟨.upgrade, .rolling, none, "2.3.0.0", none⟩ = .ok run ∧
      ((reconcile run (real options)).run shipped.store).store.ToldApart ∧
      Foreseen run options shipped.store := by
  refine ⟨_, rfl, by decide, ?_⟩
  exact ((dryRun_agrees_iff _ _ _).2.2 (by decide)).1 (by decide)

/-- A dry run of a downgrade reports services that have nothing to go back to. A dry run of an
upgrade carries a type over that the upgrade itself takes from its service. -/
theorem dryRun_disagrees :
    let options : ReconcileOptions := ⟨"admin", "upgrade", .allServices, false⟩
    let bare : Topology := { Topology.sharedSite with configurations := [] }
    (∃ run, bare.run ⟨.downgrade, .rolling, none, "2.2.0.0", some "2.3.0.0"⟩ = .ok run ∧
      ((reconcile run (dry options)).run bare.store).result =
        .ok [⟨"ZOOKEEPER", ⟨"HDP", "2.3"⟩, ⟨"HDP", "2.2"⟩, .reverted⟩,
          ⟨"HDFS", ⟨"HDP", "2.3"⟩, ⟨"HDP", "2.2"⟩, .reverted⟩] ∧
      ((reconcile run (real options)).run bare.store).result =
        .error (.refused (.noRevisions "ZOOKEEPER" "HDP-2.2"))) ∧
    ∃ run, Topology.sharedSite.run ⟨.upgrade, .rolling, none, "2.3.0.0", none⟩ = .ok run ∧
      ((reconcile run (dry options)).run Topology.sharedSite.store).result ≠
        ((reconcile run (real options)).run Topology.sharedSite.store).result :=
  ⟨⟨_, rfl, by decide, by decide⟩, _, rfl, by decide⟩

end ClusterUpgrade.Reconcile
