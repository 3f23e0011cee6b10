import ClusterUpgrade.Proofs.Parts
import ClusterUpgrade.Store.Script

/-!
# Routines

A routine is whatever can be done with a store: it makes calls, one after the other, and decides on
the result of each call how to go on. It may open transactions and do in them whatever a routine can
do; a transaction that ends with a failure has changed nothing.

A property that no write of revisions breaks, and that looks at nothing else, holds after every
routine (`Routine.keeps`).
-/

namespace ClusterUpgrade

/-! ## Calls -/

/-- One call on a store, by what it fails with and what it returns. -/
inductive Call : Type → Type → Type where
  | request (request : Request) : Call StoreError Answer
  | reconcile (run : UpgradeRun) (options : ReconcileOptions) :
      Call TransitionError (List ServiceChange)
  | setRepositories (run : UpgradeRun) (catalog : StackMetadata) :
      Call TransitionError (List ComponentTransition)
  | update (run : UpgradeRun) (catalog : StackMetadata) (options : ReconcileOptions) :
      Call TransitionError (List ComponentTransition × List ServiceChange)

def Call.operation {ε α : Type} : Call ε α → Operation ε α
  | .request r => r.operation
  | .reconcile run options => ClusterUpgrade.reconcile run options
  | .setRepositories run catalog => setDesiredRepositories run catalog
  | .update run catalog options => updateCluster run catalog options

/-! ## Routines -/

namespace Operation

variable {ε δ α : Type}

/-- An operation whose failure is a result. -/
def attempt (op : Operation ε α) : Operation δ (Except ε α) := fun s =>
  let o := op s
  ⟨o.store, o.events, .ok o.result⟩

def ofExcept : Except ε α → Operation ε α
  | .ok a => pure a
  | .error e => fail e

theorem Keeps.attempt {P : Store → Prop} {op : Operation ε α} (h : Keeps P op) :
    Keeps P (Operation.attempt op : Operation δ (Except ε α)) := h

theorem Keeps.ofExcept {P : Store → Prop} (r : Except ε α) : Keeps P (Operation.ofExcept r) := by
  cases r with
  | ok a => exact .pure a
  | error e => exact .fail e

end Operation

/-- What can be done with a store. -/
inductive Routine : Type → Type → Type 1 where
  | finish {ε α : Type} (result : Except ε α) : Routine ε α
  | call {ε α δ β : Type} (call : Call δ β) (next : Except δ β → Routine ε α) : Routine ε α
  /-- A transaction with a routine of its own, and what is done after it. If the store cannot be
  copied, it fails for that. -/
  | transaction {ε α δ β : Type} (refused : StoreError → δ) (inner : Routine δ β)
      (next : Except δ β → Routine ε α) : Routine ε α

/-- The operation of a routine on a store. -/
def Routine.operation {ε α : Type} : Routine ε α → Operation ε α
  | finish result => .ofExcept result
  | call c next => c.operation.attempt >>= fun r => (next r).operation
  | transaction refused inner next =>
    (Operation.transaction refused inner.operation).attempt >>= fun r => (next r).operation

/-! ## What no call breaks -/

/-- A property of stores that looks at revisions and at what is current, and that no write of
revisions breaks. -/
structure Store.Stable (P : Store → Prop) : Prop where
  frame {s s' : Store} : s'.revisions = s.revisions → s'.current = s.current → P s → P s'
  addRevision {s : Store} (stack : StackId) (service type : String) (properties : Properties)
    (actor comment : String) : P s → P (s.addRevision stack service type properties actor comment)
  applyLatest {s s' : Store} {stack : StackId} {service : String} :
    s.applyLatest stack service = .ok s' → P s → P s'

namespace Store.Stable

open Operation

variable {P : Store → Prop} (stable : Stable P)

include stable

theorem createRevisions {s : Store} (stack : StackId) (service : String)
    (configs : PropertiesByType) (actor comment : String) (h : P s) :
    P (s.createRevisions stack service configs actor comment) :=
  createRevisions_induction actor comment configs
    (fun e _ _ => stable.addRevision stack service e.1 e.2 actor comment) h

theorem movedFrom {s t : Store} (moved : MovedFrom s t) (h : P s) : P t :=
  stable.frame moved.configs.1 moved.configs.2 h

/-- A write of services keeps a stable property. -/
theorem writing_services {ε : Type} {f : Store → Except ε Store}
    (h : ∀ s t, f s = .ok t → MovedFrom s t) : Keeps P (Operation.writing f) :=
  .writing fun s t hf => stable.movedFrom (h s t hf)

theorem transition_services {f : Store → Except StoreError Store}
    (h : ∀ s t, f s = .ok t → MovedFrom s t) : Keeps P (Transition.writing f) :=
  .transition fun s t hf => stable.movedFrom (h s t hf)

theorem request (r : Request) : Keeps P r.operation := by
  have writes {f : Store → Except StoreError Store} (h : Keeps P (Operation.writing f)) :
      Keeps P (Request.writes f) := h.bind fun _ => .pure _
  cases r with
  | defaults | live | current | created | placeholder | components | snapshot => exact fun _ h => h
  | applyLatest stack service => exact writes (.writing fun _ _ => stable.applyLatest)
  | create stack service configs actor comment =>
    refine writes (.writing fun s s' hf hs => ?_)
    obtain rfl := Except.ok.inj hf
    exact stable.createRevisions _ _ _ _ _ hs
  | setServiceRepository =>
    exact writes (stable.writing_services fun _ _ => movedFrom_setServiceRepository)
  | setComponentRepository =>
    exact writes (stable.writing_services fun _ _ => movedFrom_setComponentRepository)
  | setHostState | setHostVersion =>
    exact writes (stable.writing_services fun _ _ => movedFrom_updateHost)

theorem reconcileParts : Reconcile.Parts fun _ op => Keeps P op where
  toComposes := Keeps.composes
  say _ _ _ := fun _ h => h
  merge _ _ _ := .reading _
  applyLatest _ _ := .transition fun _ _ => stable.applyLatest
  create _ _ _ _ _ := by
    refine .transition fun s s' hf hs => ?_
    obtain rfl := Except.ok.inj hf
    exact stable.createRevisions _ _ _ _ _ hs

theorem repositoryParts (services : List String) :
    Repositories.Parts services fun _ op => Keeps P op where
  toComposes := Keeps.composes
  say _ _ _ := fun _ h => h
  componentsOf _ := .reading _
  setService _ _ := stable.transition_services fun _ _ => movedFrom_setServiceRepository
  setComponent _ _ _ := stable.transition_services fun _ _ => movedFrom_setComponentRepository
  setState _ _ _ _ := stable.transition_services fun _ _ => movedFrom_updateHost
  setVersion _ _ _ _ := stable.transition_services fun _ _ => movedFrom_updateHost

theorem call {ε α : Type} (c : Call ε α) : Keeps P c.operation := by
  cases c with
  | request r => exact stable.request r
  | reconcile run options => exact (stable.reconcileParts.steps run options).transaction _
  | setRepositories run catalog => exact ((stable.repositoryParts _).steps catalog).transaction _
  | update run catalog options =>
    refine Keeps.transaction _ (((stable.repositoryParts _).steps catalog).bind fun _ => ?_)
    exact (stable.reconcileParts.steps run options).bind fun _ => .pure _

end Store.Stable

/-- What no write of revisions breaks holds after every routine. -/
theorem Routine.keeps {P : Store → Prop} (stable : Store.Stable P) {ε α : Type}
    (w : Routine ε α) : w.operation.Keeps P := by
  induction w with
  | finish result => exact .ofExcept result
  | call c next ih => exact (stable.call c).attempt.bind ih
  | transaction refused inner next inner_ih ih =>
    exact (inner_ih.transaction refused).attempt.bind ih

end ClusterUpgrade
