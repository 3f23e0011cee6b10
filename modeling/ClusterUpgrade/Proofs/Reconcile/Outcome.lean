import ClusterUpgrade.Proofs.Reconcile.Visit
import ClusterUpgrade.Proofs.Topology

/-!
# The outcome of a reconciliation

Services are visited one after the other on a store that the earlier ones have changed. What they
change is never what a later obstacle looks at (`Writes.defaults`, `Writes.revisions`), so a
reconciliation fails for the first service with an obstacle on the store it starts from
(`eval_visitAll_eq_error_iff`), and otherwise accounts for every service
(`eval_visitAll_eq_ok`). `outcome_of_reconcile` is the whole statement.
-/

namespace ClusterUpgrade.Reconcile

open Operation

/-! ## Runs over services -/

/-- The first obstacle among services that follow others, judged on one store. -/
def FirstObstacle (run : UpgradeRun) (options : ReconcileOptions) (s : Store)
    (before services : List String) (e : TransitionError) : Prop :=
  ∃ passed service rest, services = passed ++ service :: rest ∧
    Obstacle run options s (before ++ passed) service e ∧
    ∀ passed' service' rest', passed = passed' ++ service' :: rest' →
      ∀ e', ¬ Obstacle run options s (before ++ passed') service' e'

/-- What changes write, one after the other. -/
def WritesAll (options : ReconcileOptions) : List ServiceChange → Store → Store → Prop
  | [], s, s' => s' = s
  | c :: cs, s, s' => ∃ mid, Writes options c s mid ∧ WritesAll options cs mid s'

variable {run : UpgradeRun} {options : ReconcileOptions} {s s' s₀ : Store}
  {before services : List String} {service : String} {ended : Bool} {e : TransitionError}
  {c : ServiceChange} {cs : List ServiceChange}

/-! ## What a change leaves alone -/

theorem Writes.defaults (h : Writes options c s s') : s'.defaults = s.defaults := by
  rcases h.cases with rfl | ⟨-, ha⟩ | ⟨m, -, -, rfl⟩
  · rfl
  · rw [(Store.applyLatest_eq_ok_iff.1 ha).2]
  · exact Store.defaults_createRevisions _ _ _

theorem Writes.revisions (h : Writes options c s s') (kept : ∀ m, c.change ≠ .merged m) :
    s'.revisions = s.revisions := by
  rcases h.cases with rfl | ⟨-, ha⟩ | ⟨m, hm, -⟩
  · rfl
  · rw [(Store.applyLatest_eq_ok_iff.1 ha).2]
  · exact absurd hm (kept m)

theorem Accounted.source_eq {v : RepositoryVersion} (h : Accounted run options before c)
    (hv : run.sources.get? c.service = some v) : c.source = v.stackId := by
  obtain ⟨v', hv', hsource⟩ := h.source
  rw [hsource, Option.some.inj (hv'.symm.trans hv)]

theorem Accounted.target_eq {w : RepositoryVersion} (h : Accounted run options before c)
    (hw : run.targets.get? c.service = some w) : c.target = w.stackId := by
  obtain ⟨w', hw', htarget⟩ := h.target
  rw [htarget, Option.some.inj (hw'.symm.trans hw)]

theorem Accounted.crosses (h : Accounted run options before c) (differs : c.source ≠ c.target) :
    Crosses run c.service := by
  obtain ⟨v, hv, hs⟩ := h.source
  obtain ⟨w, hw, ht⟩ := h.target
  exact ⟨v, w, hv, hw, by rwa [← hs, ← ht]⟩

theorem Accounted.differs (h : Accounted run options before c) (crosses : Crosses run c.service) :
    c.source ≠ c.target := by
  obtain ⟨v, w, hv, hw, hne⟩ := crosses
  rw [h.source_eq hv, h.target_eq hw]
  exact hne

/-- A downgrade of all services never ends early. -/
theorem Accounted.reverted_of_allServices (h : Accounted run options before c)
    (all : options.downgradeScope = .allServices) (down : run.direction = .downgrade)
    (differs : c.source ≠ c.target) : c.change = .reverted := by
  refine h.reverted ?_ differs down
  rintro ⟨-, first, -⟩
  rw [all] at first
  cases first

/-- A change is a revert exactly when a downgrade that has not ended meets a service that crosses
stacks. -/
theorem Accounted.reverted_iff (h : Accounted run options before c) : c.change = .reverted ↔
    ¬ Ended run options before ∧ Crosses run c.service ∧ run.direction = .downgrade := by
  constructor
  · intro hc
    have going : ¬ Ended run options before := fun hended => by
      rw [h.notProcessed hended] at hc
      cases hc
    have differs : c.source ≠ c.target := fun same => by
      rw [h.unchanged going same] at hc
      cases hc
    refine ⟨going, h.crosses differs, ?_⟩
    cases hdir : run.direction with
    | downgrade => rfl
    | upgrade =>
      obtain ⟨m, hm⟩ := h.merged going differs hdir
      rw [hm] at hc
      cases hc
  · rintro ⟨going, crosses, down⟩
    exact h.reverted going (h.differs crosses) down

theorem Accounted.not_merged (h : Accounted run options before c)
    (down : run.direction = .downgrade) (m : Merge) : c.change ≠ .merged m := by
  intro hc
  by_cases hended : Ended run options before
  · rw [h.notProcessed hended] at hc
    cases hc
  · by_cases same : c.source = c.target
    · rw [h.unchanged hended same] at hc
      cases hc
    · rw [h.reverted hended same down] at hc
      cases hc

theorem NoDefaults.transfer {stack : StackId} {cause : StoreError} (hd : s.defaults = s₀.defaults)
    (h : NoDefaults s stack service cause) : NoDefaults s₀ stack service cause := by
  cases h with
  | stack missing => exact .stack (hd ▸ missing)
  | service there unlisted function => exact .service (hd ▸ there) unlisted function

/-- An obstacle looks at the defaults, and on a downgrade at the revisions. -/
theorem Obstacle.transfer (hd : s.defaults = s₀.defaults)
    (hr : run.direction = .downgrade → s.revisions = s₀.revisions)
    (h : Obstacle run options s before service e) : Obstacle run options s₀ before service e := by
  cases h with
  | noSource hv => exact .noSource hv
  | noTarget hv hw => exact .noTarget hv hw
  | noSourceDefaults hv hw crosses up missing =>
    exact .noSourceDefaults hv hw crosses up (missing.transfer hd)
  | noTargetDefaults hv hw crosses up there missing =>
    exact .noTargetDefaults hv hw crosses up (fun _ none => there _ (none.transfer hd.symm))
      (missing.transfer hd)
  | noRevisions hv hw crosses down real going missing =>
    exact .noRevisions hv hw crosses down real going (hr down ▸ missing)

theorem obstacle_congr (hd : s.defaults = s₀.defaults)
    (hr : run.direction = .downgrade → s.revisions = s₀.revisions) :
    Obstacle run options s before service e ↔ Obstacle run options s₀ before service e :=
  ⟨Obstacle.transfer hd hr, Obstacle.transfer hd.symm fun down => (hr down).symm⟩

/-- What each change keeps, given those before it, holds after all of them. -/
theorem WritesAll.induction {P : List ServiceChange → Store → Prop}
    (h : WritesAll options cs s s') (start : P [] s)
    (step : ∀ done c rest s s', cs = done ++ c :: rest → P done s → Writes options c s s' →
      P (done ++ [c]) s') : P cs s' := by
  have go : ∀ todo done s, cs = done ++ todo → WritesAll options todo s s' → P done s →
      P cs s' := by
    intro todo
    induction todo with
    | nil =>
      rintro done s hcs rfl hdone
      rw [hcs, List.append_nil]
      exact hdone
    | cons c rest ih =>
      rintro done s hcs ⟨mid, writes, hrest⟩ hdone
      refine ih (done ++ [c]) mid ?_ hrest (step done c rest s mid hcs hdone writes)
      rw [hcs, List.append_assoc]
      rfl
  exact go cs [] s rfl h start

/-! ## The first obstacle -/

theorem not_firstObstacle_nil : ¬ FirstObstacle run options s before [] e := by
  rintro ⟨passed, x, rest, h, -⟩
  cases passed <;> cases h

theorem firstObstacle_cons_iff : FirstObstacle run options s before (service :: services) e ↔
    Obstacle run options s before service e ∨
      (∀ e', ¬ Obstacle run options s before service e') ∧
        FirstObstacle run options s (before ++ [service]) services e := by
  constructor
  · rintro ⟨passed, x, rest, h, obstacle, first⟩
    cases passed with
    | nil =>
      obtain ⟨rfl, rfl⟩ := List.cons.inj h
      exact Or.inl (by simpa using obstacle)
    | cons y passed =>
      obtain ⟨rfl, rfl⟩ := List.cons.inj h
      refine Or.inr ⟨by simpa using first [] service passed rfl, passed, x, rest, rfl, ?_, ?_⟩
      · simpa using obstacle
      · rintro passed' x' rest' rfl
        simpa using first (service :: passed') x' rest' rfl
  · rintro (obstacle | ⟨clear, passed, x, rest, rfl, obstacle, first⟩)
    · refine ⟨[], service, services, rfl, by simpa using obstacle, ?_⟩
      intro passed' x' rest' h
      cases passed' <;> cases h
    · refine ⟨service :: passed, x, rest, rfl, by simpa using obstacle, ?_⟩
      intro passed' x' rest' h
      cases passed' with
      | nil =>
        obtain ⟨rfl, -⟩ := List.cons.inj h
        simpa using clear
      | cons y passed' =>
        obtain ⟨rfl, rfl⟩ := List.cons.inj h
        simpa using first passed' x' rest' rfl

/-- Where there is an obstacle at all, there is a first one. -/
theorem exists_firstObstacle_iff : (∃ e, FirstObstacle run options s before services e) ↔
    ∃ passed service rest e, services = passed ++ service :: rest ∧
      Obstacle run options s (before ++ passed) service e := by
  constructor
  · rintro ⟨e, passed, x, rest, h, obstacle, -⟩
    exact ⟨passed, x, rest, e, h, obstacle⟩
  · rintro ⟨passed, x, rest, e, rfl, obstacle⟩
    induction passed generalizing before with
    | nil => exact ⟨e, firstObstacle_cons_iff.2 (Or.inl (by simpa using obstacle))⟩
    | cons y passed ih =>
      by_cases blocked : ∃ e', Obstacle run options s before y e'
      · obtain ⟨e', here⟩ := blocked
        exact ⟨e', firstObstacle_cons_iff.2 (Or.inl here)⟩
      · have later : Obstacle run options s ((before ++ [y]) ++ passed) x e := by
          simpa using obstacle
        obtain ⟨e', first⟩ := ih later
        exact ⟨e', firstObstacle_cons_iff.2 (Or.inr ⟨fun e' h => blocked ⟨e', h⟩, first⟩)⟩

/-! ## All services -/

theorem eval_visitAll_cons : eval (visitAll run options ended (service :: services)) s =
    (eval (visit run options ended service) s).bind fun p =>
      (eval (visitAll run options (ended || ends options p.1) services) p.2).map fun q =>
        (p.1 :: q.1, q.2) := by
  rw [visitAll, eval_bind]
  congr 1
  funext p
  rw [eval_bind]
  cases eval (visitAll run options (ended || ends options p.1) services) p.2 <;> rfl

/-- The flag that a run carries says that the downgrade has ended. -/
theorem ended_append (flag : ended = true ↔ Ended run options before)
    (h : Accounted run options before c) :
    (ended || ends options c) = true ↔ Ended run options (before ++ [c.service]) := by
  rw [Bool.or_eq_true, flag, ends, decide_eq_true_iff, h.reverted_iff]
  constructor
  · rintro (⟨down, scope, x, hx, crosses⟩ | ⟨⟨-, crosses, down⟩, scope⟩)
    · exact ⟨down, scope, x, List.mem_append_left _ hx, crosses⟩
    · exact ⟨down, scope, c.service, by simp, crosses⟩
  · rintro ⟨down, scope, x, hx, crosses⟩
    by_cases hended : Ended run options before
    · exact Or.inl hended
    · rcases List.mem_append.1 hx with hx | hx
      · exact absurd ⟨down, scope, x, hx, crosses⟩ hended
      · rw [List.mem_singleton.1 hx] at crosses
        exact Or.inr ⟨⟨hended, crosses, down⟩, scope⟩

/-- A run over services fails exactly for the first obstacle, judged on any store with the same
defaults and, on a downgrade, the same revisions. -/
theorem eval_visitAll_eq_error_iff (flag : ended = true ↔ Ended run options before)
    (hd : s.defaults = s₀.defaults) (hr : run.direction = .downgrade → s.revisions = s₀.revisions) :
    eval (visitAll run options ended services) s = .error e ↔
      FirstObstacle run options s₀ before services e := by
  induction services generalizing before ended s with
  | nil =>
    constructor
    · intro h
      cases h
    · intro h
      exact absurd h not_firstObstacle_nil
  | cons service services ih =>
    have here (e : TransitionError) : eval (visit run options ended service) s = .error e ↔
        Obstacle run options s₀ before service e :=
      (eval_visit_eq_error_iff flag).trans (obstacle_congr hd hr)
    rw [eval_visitAll_cons, firstObstacle_cons_iff]
    cases hvisit : eval (visit run options ended service) s with
    | error e₀ =>
      have obstacle := (here e₀).1 hvisit
      rw [← here e, hvisit]
      simp only [Except.bind, Except.error.injEq]
      constructor
      · exact Or.inl
      · rintro (h | ⟨clear, -⟩)
        · exact h
        · exact absurd obstacle (clear e₀)
    | ok p =>
      have clear : ∀ e', ¬ Obstacle run options s₀ before service e' := by
        intro e' obstacle
        rw [(here e').2 obstacle] at hvisit
        cases hvisit
      obtain ⟨rfl, accounted, writes⟩ := eval_visit_eq_ok flag hvisit
      rw [or_iff_right (clear e), and_iff_right clear,
        ← ih (ended_append flag accounted) (writes.defaults.trans hd) fun down =>
          (writes.revisions (accounted.not_merged down)).trans (hr down)]
      simp only [Except.bind]
      cases eval (visitAll run options (ended || ends options p.1) services) p.2 <;>
        simp [Except.map]

/-- A run over services that does not fail accounts for each of them and makes their writes. -/
theorem eval_visitAll_eq_ok (flag : ended = true ↔ Ended run options before)
    (h : eval (visitAll run options ended services) s = .ok (cs, s')) :
    cs.map (·.service) = services ∧ WritesAll options cs s s' ∧
      ∀ done c rest, cs = done ++ c :: rest →
        Accounted run options (before ++ done.map (·.service)) c := by
  induction services generalizing before ended s cs with
  | nil =>
    obtain ⟨rfl, rfl⟩ := Prod.mk.inj (Except.ok.inj h)
    refine ⟨rfl, rfl, ?_⟩
    intro done c rest hcs
    cases done <;> cases hcs
  | cons service services ih =>
    rw [eval_visitAll_cons] at h
    cases hvisit : eval (visit run options ended service) s with
    | error e => simp [hvisit, Except.bind] at h
    | ok p =>
      obtain ⟨c, mid⟩ := p
      obtain ⟨rfl, accounted, writes⟩ := eval_visit_eq_ok flag hvisit
      cases hrest : eval (visitAll run options (ended || ends options c) services) mid with
      | error e => simp [hvisit, hrest, Except.bind, Except.map] at h
      | ok q =>
        simp only [hvisit, hrest, Except.bind, Except.map, Except.ok.injEq, Prod.mk.injEq] at h
        obtain ⟨rfl, rfl⟩ := h
        obtain ⟨hservices, hwrites, haccounted⟩ := ih (ended_append flag accounted) hrest
        refine ⟨by rw [List.map_cons, hservices], ⟨mid, writes, hwrites⟩, ?_⟩
        intro done c' rest hcs
        cases done with
        | nil =>
          obtain ⟨rfl, -⟩ := List.cons.inj hcs
          simpa using accounted
        | cons d done =>
          obtain ⟨rfl, htail⟩ := List.cons.inj hcs
          simpa using haccounted done c' rest htail

/-! ## The whole reconciliation -/

theorem not_ended_nil : ¬ Ended run options [] := by
  rintro ⟨-, -, x, hx, -⟩
  cases hx

theorem eval_steps_eq_error_iff :
    eval (steps run options) s = .error e ↔ FirstObstacle run options s [] run.services e := by
  have flag : false = true ↔ Ended run options [] := by simp [not_ended_nil]
  exact eval_visitAll_eq_error_iff flag rfl fun _ => rfl

theorem eval_steps_eq_ok (h : eval (steps run options) s = .ok (cs, s')) :
    cs.map (·.service) = run.services ∧ WritesAll options cs s s' ∧
      ∀ done c rest, cs = done ++ c :: rest → Accounted run options (done.map (·.service)) c := by
  have flag : false = true ↔ Ended run options [] := by simp [not_ended_nil]
  exact eval_visitAll_eq_ok flag h

theorem result_eq_ok_iff : ((reconcile run options).run s).result = .ok cs ↔
    s.uncopyable = none ∧ ∃ s', eval (steps run options) s = .ok (cs, s') :=
  result_transaction_eq_ok_iff

/-- What a reconciliation fails for: a store that cannot be copied, or else the first obstacle. -/
def Failure (run : UpgradeRun) (options : ReconcileOptions) (s : Store) (e : TransitionError) :
    Prop :=
  match s.uncopyable with
  | some text => e = .refused (.notCopyable text)
  | none => FirstObstacle run options s [] run.services e

theorem result_eq_error_iff :
    ((reconcile run options).run s).result = .error e ↔ Failure run options s e := by
  refine result_transaction_eq_error_iff.trans ?_
  unfold Failure
  cases s.uncopyable with
  | some text => simp
  | none => simp [eval_steps_eq_error_iff]

end ClusterUpgrade.Reconcile
