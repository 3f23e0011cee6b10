import ClusterUpgrade.Proofs.Parts
import ClusterUpgrade.Proofs.Topology

/-!
# Versions beside configurations

The move to new versions works on the services of a store and on the repositories of their
components, and a reconciliation works on revisions and on what is current. Neither writes anything
else (`Repositories.keeps_movedFrom`, `Reconcile.keeps_reconciledFrom`), and neither sees what the
other writes (`Repositories.ignores_configs`, `Reconcile.ignores_services`). So the two come to the
same in any order, and to the same as both at once, as long as the store can be copied in between
(`versions_and_configurations_independent`). A move takes that from it for a service that is named
like a function (`reconcile_after_move_makerSite`).
-/

namespace ClusterUpgrade

/-! ## Operations that ignore a change -/

namespace Operation

variable {ε α β : Type} {φ : Store → Store}

/-- An operation ignores a change of the store: with it, the operation comes to the same, and the
change is still there. -/
def Ignores (φ : Store → Store) (op : Operation ε α) : Prop :=
  ∀ s, run op (φ s) = ⟨φ (run op s).store, (run op s).events, (run op s).result⟩

namespace Ignores

variable {op : Operation ε α}

theorem pure (a : α) : Ignores φ (Pure.pure a : Operation ε α) := fun _ => rfl

theorem fail (e : ε) : Ignores φ (Operation.fail e : Operation ε α) := fun _ => rfl

theorem bind {f : α → Operation ε β} (first : Ignores φ op) (next : ∀ a, Ignores φ (f a)) :
    Ignores φ (op >>= f) := by
  intro s
  cases h : (run op s).result with
  | error e =>
    have changed : (run op (φ s)).result = .error e := by rw [first s, h]
    rw [run_bind_of_error h, run_bind_of_error changed, first s]
  | ok a =>
    have changed : (run op (φ s)).result = .ok a := by rw [first s, h]
    rw [run_bind_of_ok h, run_bind_of_ok changed, first s, next a]

theorem composes : Composes fun _ (op : Operation ε _) => Ignores φ op := ⟨pure, fail, bind⟩

theorem reading {f : Store → Except StoreError α} (h : ∀ s, f (φ s) = f s) :
    Ignores φ (Transition.reading f) := by
  intro s
  show (⟨φ s, [], (f (φ s)).mapError _⟩ : Outcome _ _) = _
  rw [h]
  rfl

theorem writing {f : Store → Except StoreError Store} (h : ∀ s, f (φ s) = (f s).map φ) :
    Ignores φ (Transition.writing f) := by
  intro s
  simp only [run, Transition.writing, Operation.writing, h]
  cases f s <;> rfl

/-- What an operation comes to with a change that it ignores is what it comes to without it. -/
theorem eval_eq (h : Ignores φ op) (s : Store) :
    eval op (φ s) = (eval op s).map fun p => (p.1, φ p.2) := by
  unfold eval
  rw [h s]
  cases (run op s).result <;> rfl

/-- What is said depends on nothing but the name of the cluster. -/
theorem say (named : ∀ s, (φ s).clusterName = s.clusterName) (level : Log.Level)
    (message : String) (context : Record Document) :
    Ignores φ (Transition.say level message context) := by
  intro s
  simp only [run, Transition.say, tell, named]

end Ignores

end Operation

open Operation

/-! ## Parts that ignore a change -/

namespace Store

variable {s t : Store} {service component : String}

theorem updateService_withConfigsOf (f : ServiceState → Except StoreError ServiceState) :
    (s.withConfigsOf t).updateService service f =
      (s.updateService service f).map (·.withConfigsOf t) := by
  unfold updateService
  simp only [withConfigsOf]
  cases updateFirst (·.name = service) (.noService service s.clusterName) f s.services <;> rfl

theorem recordComponentRepository_withConfigsOf (v : RepositoryVersion) :
    (s.withConfigsOf t).recordComponentRepository service component v =
      (s.recordComponentRepository service component v).withConfigsOf t := by
  unfold recordComponentRepository withConfigsOf
  dsimp only
  split <;> rfl

theorem setComponentRepository_withConfigsOf (v : RepositoryVersion) :
    (s.withConfigsOf t).setComponentRepository service component v =
      (s.setComponentRepository service component v).map (·.withConfigsOf t) := by
  unfold setComponentRepository updateComponent
  rw [updateService_withConfigsOf]
  generalize s.updateService service _ = r
  cases r with
  | error e => rfl
  | ok s' => exact congrArg Except.ok (recordComponentRepository_withConfigsOf v)

theorem applyLatest_withServicesOf (stack : StackId) :
    (s.withServicesOf t).applyLatest stack service =
      (s.applyLatest stack service).map (·.withServicesOf t) := by
  show (if (s.latestVersions stack service).entries.isEmpty then _ else _) = _
  unfold applyLatest
  dsimp only
  split <;> rfl

theorem createRevisions_withServicesOf (stack : StackId) (configs : PropertiesByType)
    (actor comment : String) :
    (s.withServicesOf t).createRevisions stack service configs actor comment =
      (s.createRevisions stack service configs actor comment).withServicesOf t :=
  List.foldl_hom (fun u : Store => u.withServicesOf t) fun _ _ => rfl

end Store

/-- The services of one store and the configurations of another come together in either order. -/
theorem Store.MovedFrom.withServicesOf_eq {s t u : Store} (moved : s.MovedFrom t)
    (reconciled : s.ReconciledFrom u) : u.withServicesOf t = t.withConfigsOf u := by
  calc u.withServicesOf t = (s.withConfigsOf u).withServicesOf t :=
        congrArg (·.withServicesOf t) reconciled
    _ = (s.withServicesOf t).withConfigsOf u := rfl
    _ = t.withConfigsOf u := (congrArg (·.withConfigsOf u) moved).symm

section Transitions

variable (run : UpgradeRun) (catalog : StackMetadata) (options : ReconcileOptions) (s t : Store)

/-! ## The move to new versions -/

namespace Repositories

theorem ignores_configs : Ignores (·.withConfigsOf t) (steps run catalog) := by
  have parts : Parts run.services fun _ op => Ignores (·.withConfigsOf t) op :=
    { Ignores.composes with
      say := Ignores.say fun _ => rfl
      componentsOf := fun _ => .reading fun _ => rfl
      setService := fun _ _ => .writing fun _ => Store.updateService_withConfigsOf _
      setComponent := fun _ _ v => .writing fun _ => Store.setComponentRepository_withConfigsOf v
      setState := fun _ _ _ _ => .writing fun _ => Store.updateService_withConfigsOf _
      setVersion := fun _ _ _ _ => .writing fun _ => Store.updateService_withConfigsOf _ }
  exact parts.steps catalog

end Repositories

/-! ## The reconciliation -/

namespace Reconcile

theorem ignores_services : Ignores (·.withServicesOf t) (steps run options) := by
  have parts : Parts fun _ op => Ignores (·.withServicesOf t) op :=
    { Ignores.composes with
      say := Ignores.say fun _ => rfl
      merge := fun _ _ _ => .reading fun _ => rfl
      applyLatest := fun stack _ => .writing fun _ => Store.applyLatest_withServicesOf stack
      create := fun stack _ configs actor comment => .writing fun _ =>
        congrArg Except.ok (Store.createRevisions_withServicesOf stack configs actor comment) }
  exact parts.steps run options

end Reconcile

/-! ## One after the other -/

/-- A reconciliation comes after a move to what it comes to without it. -/
theorem eval_reconcile_of_moved (moved : s.MovedFrom t) :
    eval (Reconcile.steps run options) t =
      (eval (Reconcile.steps run options) s).map fun p => (p.1, p.2.withServicesOf t) :=
  (congrArg _ moved).trans ((Reconcile.ignores_services run options t).eval_eq s)

/-- A move comes after a reconciliation to what it comes to without it. -/
theorem eval_repositories_of_reconciled (reconciled : s.ReconciledFrom t) :
    eval (Repositories.steps run catalog) t =
      (eval (Repositories.steps run catalog) s).map fun p => (p.1, p.2.withConfigsOf t) :=
  (congrArg _ reconciled).trans ((Repositories.ignores_configs run catalog t).eval_eq s)

variable {run catalog options s}

theorem movedFrom_of_eval {ts : List ComponentTransition} {t : Store}
    (h : eval (Repositories.steps run catalog) s = .ok (ts, t)) : s.MovedFrom t := by
  rw [← store_of_eval_ok h]
  exact Repositories.keeps_movedFrom run catalog s s rfl

theorem reconciledFrom_of_eval {cs : List ServiceChange} {t : Store}
    (h : eval (Reconcile.steps run options) s = .ok (cs, t)) : s.ReconciledFrom t := by
  rw [← store_of_eval_ok h]
  exact Reconcile.keeps_reconciledFrom run options s s rfl

/-- Both at once come to what each of them comes to on its own. -/
theorem eval_update :
    eval (do
      let ts ← Repositories.steps run catalog
      let cs ← Reconcile.steps run options
      return (ts, cs)) s =
    (eval (Repositories.steps run catalog) s).bind fun p =>
      (eval (Reconcile.steps run options) s).map fun q =>
        ((p.1, q.1), q.2.withServicesOf p.2) := by
  rw [eval_bind]
  cases hmoved : eval (Repositories.steps run catalog) s with
  | error e => rfl
  | ok p =>
    obtain ⟨ts, t⟩ := p
    show eval (Reconcile.steps run options >>= fun cs => pure (ts, cs)) t = _
    rw [eval_bind, eval_reconcile_of_moved run options s t (movedFrom_of_eval hmoved)]
    cases eval (Reconcile.steps run options) s <;> rfl

/-- Where both succeed, they come to one store at once and one after the other: the reconciliation
comes second if the move leaves a store that can be copied. -/
theorem outcomes_of_both {ts : List ComponentTransition} {cs : List ServiceChange} {t u : Store}
    (copyable : s.uncopyable = none)
    (hmoved : eval (Repositories.steps run catalog) s = .ok (ts, t))
    (hreconciled : eval (Reconcile.steps run options) s = .ok (cs, u)) :
    (((updateCluster run catalog options).run s).result = .ok (ts, cs) ∧
      ((updateCluster run catalog options).run s).store = u.withServicesOf t) ∧
    (t.uncopyable = none → ((reconcile run options).run t).result = .ok cs ∧
      ((reconcile run options).run t).store = u.withServicesOf t) ∧
    ((setDesiredRepositories run catalog).run u).result = .ok ts ∧
      ((setDesiredRepositories run catalog).run u).store = u.withServicesOf t := by
  have moved := movedFrom_of_eval hmoved
  have reconciled := reconciledFrom_of_eval hreconciled
  have still : u.uncopyable = none := (congrArg (·.uncopyable) reconciled).trans copyable
  refine ⟨transaction_of_eval_ok copyable ?_, fun kept => transaction_of_eval_ok kept ?_,
    transaction_of_eval_ok still ?_⟩
  · rw [eval_update, hmoved, hreconciled]
    rfl
  · rw [eval_reconcile_of_moved run options s t moved, hreconciled]
    rfl
  · rw [eval_repositories_of_reconciled run catalog s u reconciled, hmoved,
      moved.withServicesOf_eq reconciled]
    rfl

end Transitions

end ClusterUpgrade
