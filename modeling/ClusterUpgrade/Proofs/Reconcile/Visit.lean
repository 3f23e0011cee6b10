import ClusterUpgrade.Config.Reconcile
import ClusterUpgrade.Proofs.Merge
import ClusterUpgrade.Proofs.Operation
import ClusterUpgrade.Proofs.Store

/-!
# One service of a reconciliation

What a visit can come to, said once: it fails for an `Obstacle` (`eval_visit_eq_error_iff`), or it
gives a change that is `Accounted` for and `Writes` what belongs to the change
(`eval_visit_eq_ok`).
-/

namespace ClusterUpgrade.Reconcile

open Operation Transition

/-! ## What is decided of a service -/

/-- A service moves to another stack. -/
def Crosses (run : UpgradeRun) (service : String) : Prop :=
  ∃ v w, run.sources.get? service = some v ∧ run.targets.get? service = some w ∧
    v.stackId ≠ w.stackId

/-- A downgrade of the first service has ended: one of the services before has crossed stacks. -/
def Ended (run : UpgradeRun) (options : ReconcileOptions) (before : List String) : Prop :=
  run.direction = .downgrade ∧ options.downgradeScope = .firstService ∧
    ∃ service ∈ before, Crosses run service

/-- Why the defaults of a service on a stack cannot be had: the store has none of that stack, or it
does not list the service, and a function that every record has stands under its name. -/
inductive NoDefaults (s : Store) (stack : StackId) (service : String) : StoreError → Prop where
  | stack (missing : s.defaults.get? stack.text = none) :
      NoDefaults s stack service (.noDefaults stack.text)
  | service {services : Record DefaultsByType} (there : s.defaults.get? stack.text = some services)
      (unlisted : services.get? service = none) (function : Reserved.isFunction service = true) :
      NoDefaults s stack service (.notCopyable (Reserved.functionText service))

/-- Why a service cannot be reconciled, judged on a store and on the services before it. -/
inductive Obstacle (run : UpgradeRun) (options : ReconcileOptions) (s : Store)
    (before : List String) (service : String) : TransitionError → Prop where
  | noSource (hv : run.sources.get? service = none) :
      Obstacle run options s before service (.missingVersion service .source)
  | noTarget {v : RepositoryVersion} (hv : run.sources.get? service = some v)
      (hw : run.targets.get? service = none) :
      Obstacle run options s before service (.missingVersion service .target)
  | noSourceDefaults {v w : RepositoryVersion} {cause : StoreError}
      (hv : run.sources.get? service = some v) (hw : run.targets.get? service = some w)
      (crosses : v.stackId ≠ w.stackId) (up : run.direction = .upgrade)
      (missing : NoDefaults s v.stackId service cause) :
      Obstacle run options s before service (.refused cause)
  | noTargetDefaults {v w : RepositoryVersion} {cause : StoreError}
      (hv : run.sources.get? service = some v) (hw : run.targets.get? service = some w)
      (crosses : v.stackId ≠ w.stackId) (up : run.direction = .upgrade)
      (there : ∀ cause', ¬ NoDefaults s v.stackId service cause')
      (missing : NoDefaults s w.stackId service cause) :
      Obstacle run options s before service (.refused cause)
  | noRevisions {v w : RepositoryVersion} (hv : run.sources.get? service = some v)
      (hw : run.targets.get? service = some w) (crosses : v.stackId ≠ w.stackId)
      (down : run.direction = .downgrade) (real : options.dryRun = false)
      (going : ¬ Ended run options before)
      (missing : ∀ r ∈ s.revisions, ¬ (r.service = service ∧ r.stack = w.stackId.text)) :
      Obstacle run options s before service (.refused (.noRevisions service w.stackId.text))

/-- The change of a service is the one that its stacks and the services before it call for. -/
structure Accounted (run : UpgradeRun) (options : ReconcileOptions) (before : List String)
    (c : ServiceChange) : Prop where
  source : ∃ v, run.sources.get? c.service = some v ∧ c.source = v.stackId
  target : ∃ w, run.targets.get? c.service = some w ∧ c.target = w.stackId
  notProcessed : Ended run options before → c.change = .notProcessed
  unchanged : ¬ Ended run options before → c.source = c.target → c.change = .unchanged
  reverted : ¬ Ended run options before → c.source ≠ c.target → run.direction = .downgrade →
    c.change = .reverted
  merged : ¬ Ended run options before → c.source ≠ c.target → run.direction = .upgrade →
    ∃ m, c.change = .merged m

/-- What a change writes. A dry run writes nothing. -/
def Writes (options : ReconcileOptions) (c : ServiceChange) (s s' : Store) : Prop :=
  match c.change with
  | .unchanged | .notProcessed => s' = s
  | .reverted => if options.dryRun then s' = s else s.applyLatest c.target c.service = .ok s'
  | .merged m => mergeOf c.source c.target c.service s = .ok m ∧
      s' = if options.dryRun then s
        else s.createRevisions c.target c.service m.configs options.actor options.comment

variable {run : UpgradeRun} {options : ReconcileOptions} {s s' : Store} {before : List String}
  {service : String} {ended : Bool} {e : TransitionError} {c : ServiceChange}

/-- The three things that a change can do to a store. -/
theorem Writes.cases (h : Writes options c s s') : s' = s ∨
    (c.change = .reverted ∧ s.applyLatest c.target c.service = .ok s') ∨
    ∃ m, c.change = .merged m ∧ mergeOf c.source c.target c.service s = .ok m ∧
      s' = s.createRevisions c.target c.service m.configs options.actor options.comment := by
  unfold Writes at h
  cases hc : c.change with
  | unchanged | notProcessed =>
    simp only [hc] at h
    exact Or.inl h
  | reverted =>
    simp only [hc] at h
    split at h
    · exact Or.inl h
    · exact Or.inr (Or.inl ⟨rfl, h⟩)
  | merged m =>
    simp only [hc] at h
    obtain ⟨hm, rfl⟩ := h
    split
    · exact Or.inl rfl
    · exact Or.inr (Or.inr ⟨m, rfl, hm, rfl⟩)

/-! ## Steps of a visit -/

@[simp] theorem eval_info (message : String) (s : Store) : eval (info message) s = .ok ((), s) := rfl

theorem eval_when_not_dry (write : Transition Unit) :
    eval (Operation.when (!options.dryRun) write) s =
      if options.dryRun then .ok ((), s) else eval write s := by
  cases options.dryRun <;> rfl

theorem eval_revert (target : StackId) : eval (revert options target service) s =
    if options.dryRun then .ok (.reverted, s)
    else ((s.applyLatest target service).mapError .refused).map fun s' => (.reverted, s') := by
  simp only [revert, eval_bind, eval_info, eval_when_not_dry, Except.bind, eval_pure]
  cases options.dryRun with
  | true => rfl
  | false =>
    simp only [Transition.writing, eval_writing]
    cases s.applyLatest target service <;> rfl

theorem eval_upgrade (source target : StackId) : eval (upgrade run options source target service) s =
    ((mergeOf source target service s).mapError .refused).map fun m =>
      (.merged m, if options.dryRun then s
        else s.createRevisions target service m.configs options.actor options.comment) := by
  simp only [upgrade, Transition.reading, eval_bind, eval_reading]
  cases mergeOf source target service s with
  | error e => rfl
  | ok m =>
    simp only [mapError_ok, Except.map, Except.bind,
      eval_each_of_silent (fun p => eval_info (removedText source target p) s), eval_info,
      eval_when_not_dry]
    cases options.dryRun <;> rfl

/-- What is done with a service between its stacks. -/
def transit (run : UpgradeRun) (options : ReconcileOptions) (ended : Bool) (source target : StackId)
    (service : String) (s : Store) : Except TransitionError (ConfigChange × Store) :=
  if ended then .ok (.notProcessed, s)
  else if source = target then .ok (.unchanged, s)
  else if run.direction.isDowngrade then eval (revert options target service) s
  else eval (upgrade run options source target service) s

/-- A visit, by the versions that the run names for the service. -/
theorem eval_visit : eval (visit run options ended service) s =
    match run.sources.get? service, run.targets.get? service with
    | none, _ => .error (.missingVersion service .source)
    | some _, none => .error (.missingVersion service .target)
    | some v, some w => (transit run options ended v.stackId w.stackId service s).map fun p =>
        (⟨service, v.stackId, w.stackId, p.1⟩, p.2) := by
  rw [visit, eval_bind, version]
  cases run.sources.get? service with
  | none => rfl
  | some v =>
    simp only [eval_pure, Except.bind, eval_bind, version]
    cases run.targets.get? service with
    | none => rfl
    | some w =>
      simp only [eval_pure, transit]
      cases ended with
      | true => rfl
      | false =>
        by_cases same : v.stackId = w.stackId
        · simp only [same, if_true, Bool.false_eq_true, if_false, eval_bind, eval_info, Except.bind]
          rfl
        · simp only [same, if_false, Bool.false_eq_true]
          cases run.direction.isDowngrade with
          | true =>
            simp only [if_true, eval_bind]
            cases eval (revert options w.stackId service) s <;> rfl
          | false =>
            simp only [Bool.false_eq_true, if_false, eval_bind]
            cases eval (upgrade run options v.stackId w.stackId service) s <;> rfl

theorem mergeOf_eq_ok_iff {source target : StackId} {m : Merge} :
    mergeOf source target service s = .ok m ↔
      ∃ old new, s.defaultsOf source service = .ok old ∧ s.defaultsOf target service = .ok new ∧
        m = Merge.of ⟨old, new, s.liveConfig service⟩ := by
  unfold mergeOf
  cases s.defaultsOf source service with
  | error e => simp [bind, Except.bind]
  | ok old =>
    cases s.defaultsOf target service with
    | error e => simp [bind, Except.bind]
    | ok new => simp [bind, Except.bind, pure, Except.pure, eq_comm]

/-- A merge gives no type under whose name nothing can be written. -/
theorem isWritable_of_mergeOf {source target : StackId} {m : Merge} {e : String × Properties}
    (h : mergeOf source target service s = .ok m) (mem : e ∈ m.configs.entries) :
    Reserved.isWritable e.1 = true := by
  obtain ⟨old, new, -, -, rfl⟩ := mergeOf_eq_ok_iff.1 h
  exact Merge.isWritable_of_mem_configs mem

theorem defaultsOf_eq_error_iff {stack : StackId} {cause : StoreError} :
    s.defaultsOf stack service = .error cause ↔ NoDefaults s stack service cause := by
  unfold Store.defaultsOf
  constructor
  · intro h
    cases there : s.defaults.get? stack.text with
    | none =>
      rw [there] at h
      obtain rfl := Except.error.inj h
      exact .stack there
    | some services =>
      rw [there] at h
      cases unlisted : services.get? service with
      | some defaults => simp [unlisted] at h
      | none =>
        simp only [unlisted, Option.elim_none, Store.unlistedDefaults] at h
        split at h
        · next function =>
          obtain rfl := Except.error.inj h
          exact .service there unlisted function
        · cases h
  · intro h
    cases h with
    | stack missing => rw [missing]
    | service there unlisted function =>
      rw [there]
      simp [unlisted, Store.unlistedDefaults, function]

theorem mergeOf_eq_error_iff {source target : StackId} {cause : StoreError} :
    mergeOf source target service s = .error cause ↔ NoDefaults s source service cause ∨
      (∀ cause', ¬ NoDefaults s source service cause') ∧ NoDefaults s target service cause := by
  simp only [← defaultsOf_eq_error_iff]
  unfold mergeOf
  cases s.defaultsOf source service with
  | error e => simp [bind, Except.bind]
  | ok old =>
    cases s.defaultsOf target service with
    | error e => simp [bind, Except.bind]
    | ok new => simp [bind, Except.bind, pure, Except.pure]

/-! ## A visit as a whole -/

theorem isDowngrade_iff : run.direction.isDowngrade = true ↔ run.direction = .downgrade := by
  simp [Direction.isDowngrade]

theorem not_ended_of_upgrade (up : run.direction = .upgrade) : ¬ Ended run options before := by
  rintro ⟨down, -⟩
  rw [up] at down
  cases down

/-- Once both versions are known, what is left are the failures of the store. -/
theorem obstacle_iff_refused {v w : RepositoryVersion} (hv : run.sources.get? service = some v)
    (hw : run.targets.get? service = some w) : Obstacle run options s before service e ↔
      v.stackId ≠ w.stackId ∧ ∃ cause, e = .refused cause ∧
        ((run.direction = .upgrade ∧ mergeOf v.stackId w.stackId service s = .error cause) ∨
        (run.direction = .downgrade ∧ options.dryRun = false ∧ ¬ Ended run options before ∧
          s.applyLatest w.stackId service = .error cause)) := by
  constructor
  · intro h
    cases h with
    | noSource hv' => rw [hv] at hv'; cases hv'
    | noTarget _ hw' => rw [hw] at hw'; cases hw'
    | noSourceDefaults hv' hw' crosses up missing =>
      obtain rfl := Option.some.inj (hv.symm.trans hv')
      obtain rfl := Option.some.inj (hw.symm.trans hw')
      exact ⟨crosses, _, rfl, Or.inl ⟨up, mergeOf_eq_error_iff.2 (Or.inl missing)⟩⟩
    | noTargetDefaults hv' hw' crosses up there missing =>
      obtain rfl := Option.some.inj (hv.symm.trans hv')
      obtain rfl := Option.some.inj (hw.symm.trans hw')
      exact ⟨crosses, _, rfl, Or.inl ⟨up, mergeOf_eq_error_iff.2 (Or.inr ⟨there, missing⟩)⟩⟩
    | noRevisions hv' hw' crosses down real going missing =>
      obtain rfl := Option.some.inj (hv.symm.trans hv')
      obtain rfl := Option.some.inj (hw.symm.trans hw')
      exact ⟨crosses, _, rfl, Or.inr ⟨down, real, going,
        Store.applyLatest_eq_error_iff.2 ⟨missing, rfl⟩⟩⟩
  · rintro ⟨crosses, cause, rfl, ⟨up, hm⟩ | ⟨down, real, going, ha⟩⟩
    · rcases mergeOf_eq_error_iff.1 hm with missing | ⟨there, missing⟩
      · exact .noSourceDefaults hv hw crosses up missing
      · exact .noTargetDefaults hv hw crosses up there missing
    · obtain ⟨missing, rfl⟩ := Store.applyLatest_eq_error_iff.1 ha
      exact .noRevisions hv hw crosses down real going missing

variable {source target : StackId} {change : ConfigChange}

theorem transit_of_downgrade (crosses : source ≠ target) (down : run.direction = .downgrade) :
    transit run options false source target service s =
      if options.dryRun then .ok (.reverted, s)
      else ((s.applyLatest target service).mapError .refused).map fun s' => (.reverted, s') := by
  rw [transit, if_neg Bool.false_ne_true, if_neg crosses, if_pos (isDowngrade_iff.2 down),
    eval_revert]

theorem transit_of_upgrade (crosses : source ≠ target) (up : run.direction = .upgrade) :
    transit run options false source target service s =
      ((mergeOf source target service s).mapError .refused).map fun m =>
        (.merged m, if options.dryRun then s
          else s.createRevisions target service m.configs options.actor options.comment) := by
  have not_down : ¬ run.direction.isDowngrade = true := by
    rw [isDowngrade_iff, up]
    intro down
    cases down
  rw [transit, if_neg Bool.false_ne_true, if_neg crosses, if_neg not_down, eval_upgrade]

/-- Only the store makes a transit fail, and only between different stacks. -/
theorem transit_eq_error_iff : transit run options ended source target service s = .error e ↔
    ended = false ∧ source ≠ target ∧ ∃ cause, e = .refused cause ∧
      ((run.direction = .upgrade ∧ mergeOf source target service s = .error cause) ∨
      (run.direction = .downgrade ∧ options.dryRun = false ∧
        s.applyLatest target service = .error cause)) := by
  cases ended with
  | true => simp [transit]
  | false =>
    by_cases same : source = target
    · simp [transit, same]
    · rw [and_iff_right rfl, and_iff_right same]
      cases hdir : run.direction with
      | downgrade =>
        rw [transit_of_downgrade same hdir]
        cases options.dryRun with
        | true => simp
        | false =>
          cases s.applyLatest target service with
          | error cause => simpa [Except.map] using eq_comm
          | ok s' => simp [Except.map]
      | upgrade =>
        rw [transit_of_upgrade same hdir]
        cases mergeOf source target service s with
        | error cause => simpa [Except.map] using eq_comm
        | ok m => simp [Except.map]

/-- The change of a transit that does not fail. -/
theorem transit_eq_ok (h : transit run options ended source target service s = .ok (change, s')) :
    (ended = true → change = .notProcessed) ∧
    (ended = false → source = target → change = .unchanged) ∧
    (ended = false → source ≠ target → run.direction = .downgrade → change = .reverted) ∧
    (ended = false → source ≠ target → run.direction = .upgrade → ∃ m, change = .merged m) ∧
    Writes options ⟨service, source, target, change⟩ s s' := by
  cases ended with
  | true =>
    obtain ⟨rfl, rfl⟩ := Prod.mk.inj (Except.ok.inj h)
    exact ⟨fun _ => rfl, nofun, nofun, nofun, rfl⟩
  | false =>
    by_cases same : source = target
    · rw [transit, if_neg Bool.false_ne_true, if_pos same, Except.ok.injEq, Prod.mk.injEq] at h
      obtain ⟨rfl, rfl⟩ := h
      exact ⟨nofun, fun _ _ => rfl, fun _ crosses => absurd same crosses,
        fun _ crosses => absurd same crosses, rfl⟩
    · cases hdir : run.direction with
      | downgrade =>
        rw [transit_of_downgrade same hdir] at h
        have reverted : change = .reverted ∧
            Writes options ⟨service, source, target, .reverted⟩ s s' := by
          cases hdry : options.dryRun with
          | true =>
            rw [hdry, if_pos rfl, Except.ok.injEq, Prod.mk.injEq] at h
            obtain ⟨rfl, rfl⟩ := h
            exact ⟨rfl, by simp [Writes, hdry]⟩
          | false =>
            cases ha : s.applyLatest target service with
            | error cause => simp [hdry, ha, Except.map] at h
            | ok s₁ =>
              simp only [hdry, ha, Bool.false_eq_true, if_false, Except.map, mapError_ok,
                Except.ok.injEq, Prod.mk.injEq] at h
              obtain ⟨rfl, rfl⟩ := h
              exact ⟨rfl, by simp [Writes, hdry, ha]⟩
        obtain ⟨rfl, writes⟩ := reverted
        exact ⟨nofun, fun _ stays => absurd stays same, fun _ _ _ => rfl, nofun, writes⟩
      | upgrade =>
        rw [transit_of_upgrade same hdir] at h
        cases hm : mergeOf source target service s with
        | error cause => simp [hm, Except.map] at h
        | ok m =>
          simp only [hm, Except.map, mapError_ok, Except.ok.injEq, Prod.mk.injEq] at h
          obtain ⟨rfl, rfl⟩ := h
          exact ⟨nofun, fun _ stays => absurd stays same, nofun, fun _ _ _ => ⟨m, rfl⟩, hm, rfl⟩

variable (flag : ended = true ↔ Ended run options before)

include flag

theorem not_flag_iff : ended = false ↔ ¬ Ended run options before := by
  rw [← flag, Bool.not_eq_true]

/-- A visit fails exactly for an obstacle. -/
theorem eval_visit_eq_error_iff : eval (visit run options ended service) s = .error e ↔
    Obstacle run options s before service e := by
  rw [eval_visit]
  cases hv : run.sources.get? service with
  | none =>
    constructor
    · intro h
      cases h
      exact .noSource hv
    · intro h
      cases h with
      | noSource => rfl
      | noTarget hv' | noSourceDefaults hv' | noTargetDefaults hv' | noRevisions hv' =>
        rw [hv] at hv'
        cases hv'
  | some v =>
    cases hw : run.targets.get? service with
    | none =>
      constructor
      · intro h
        cases h
        exact .noTarget hv hw
      · intro h
        cases h with
        | noSource hv' => rw [hv] at hv'; cases hv'
        | noTarget => rfl
        | noSourceDefaults _ hw' | noTargetDefaults _ hw' | noRevisions _ hw' =>
          rw [hw] at hw'
          cases hw'
    | some w =>
      have fails : (transit run options ended v.stackId w.stackId service s).map (fun p =>
          ((⟨service, v.stackId, w.stackId, p.1⟩, p.2) : ServiceChange × Store)) = .error e ↔
            transit run options ended v.stackId w.stackId service s = .error e := by
        cases transit run options ended v.stackId w.stackId service s <;> simp [Except.map]
      rw [obstacle_iff_refused hv hw]
      refine fails.trans (transit_eq_error_iff.trans ?_)
      rw [not_flag_iff flag]
      constructor
      · rintro ⟨going, crosses, cause, rfl, up | ⟨down, real, ha⟩⟩
        · exact ⟨crosses, cause, rfl, Or.inl up⟩
        · exact ⟨crosses, cause, rfl, Or.inr ⟨down, real, going, ha⟩⟩
      · rintro ⟨crosses, cause, rfl, ⟨up, hm⟩ | ⟨down, real, going, ha⟩⟩
        · exact ⟨not_ended_of_upgrade up, crosses, cause, rfl, Or.inl ⟨up, hm⟩⟩
        · exact ⟨going, crosses, cause, rfl, Or.inr ⟨down, real, ha⟩⟩

/-- A visit that does not fail gives the change that is due and writes what belongs to it. -/
theorem eval_visit_eq_ok (h : eval (visit run options ended service) s = .ok (c, s')) :
    c.service = service ∧ Accounted run options before c ∧ Writes options c s s' := by
  rw [eval_visit] at h
  cases hv : run.sources.get? service with
  | none => rw [hv] at h; cases h
  | some v =>
    cases hw : run.targets.get? service with
    | none => rw [hv, hw] at h; cases h
    | some w =>
      simp only [hv, hw] at h
      cases htransit : transit run options ended v.stackId w.stackId service s with
      | error e => simp [htransit, Except.map] at h
      | ok p =>
        obtain ⟨change, s₁⟩ := p
        rw [htransit] at h
        obtain ⟨rfl, rfl⟩ := Prod.mk.inj (Except.ok.inj h)
        obtain ⟨notProcessed, unchanged, reverted, merged, writes⟩ := transit_eq_ok htransit
        rw [flag] at notProcessed
        rw [not_flag_iff flag] at unchanged reverted merged
        exact ⟨rfl, ⟨⟨v, hv, rfl⟩, ⟨w, hw, rfl⟩, notProcessed, unchanged, reverted, merged⟩, writes⟩

end ClusterUpgrade.Reconcile
