import ClusterUpgrade.Proofs.Routine
import ClusterUpgrade.Proofs.Steps
import ClusterUpgrade.Proofs.Topology

/-!
# Transactions

A routine that runs as a transaction is all or nothing: either it fails and the store is what it
was, or it comes to what it comes to without the transaction. A call that fails changes nothing
either, so of everything that is done in nested transactions exactly the calls in `Routine.kept`
have an effect, and they have the effect that they would have alone (`replays_kept`). Where nothing
is rejected these are all calls, and transactions make no difference (`operation_eq_direct`).

Scripts are routines (`operation_ofScript`).
-/

namespace ClusterUpgrade

open Operation

/-! ## Calls that fail -/

/-- A call that fails has changed nothing. -/
theorem Call.store_of_error {ε α : Type} {c : Call ε α} {s : Store} {e : ε}
    (h : (run c.operation s).result = .error e) : (run c.operation s).store = s := by
  cases c with
  | request r =>
    have steps : (Call.request r).operation = r.inSteps := (Request.inSteps_eq r).symm
    rw [steps] at h ⊢
    exact Request.store_inSteps_of_error h
  | reconcile | setRepositories | update => exact store_transaction_of_error h

/-- What follows an attempt goes on with the store and the result that it gives. -/
theorem Operation.run_attempt_bind {ε δ α β : Type} (op : Operation δ β)
    (f : Except δ β → Operation ε α) (s : Store) : run (op.attempt >>= f) s =
    ⟨(run (f (run op s).result) (run op s).store).store,
      (run op s).events ++ (run (f (run op s).result) (run op s).store).events,
      (run (f (run op s).result) (run op s).store).result⟩ := rfl

namespace Routine

/-! ## Without transactions -/

/-- A routine that makes all its calls on the store itself. -/
def direct {ε α : Type} : Routine ε α → Operation ε α
  | finish result => .ofExcept result
  | call c next => c.operation.attempt >>= fun r => (next r).direct
  | transaction _ inner next => inner.direct.attempt >>= fun r => (next r).direct

/-- No call is rejected on the way, and no transaction. -/
def Undisturbed {ε α : Type} : Routine ε α → Store → Prop
  | finish _, _ => True
  | call c next, s => ∃ b, (run c.operation s).result = .ok b ∧
      (next (.ok b)).Undisturbed (run c.operation s).store
  | transaction refused inner next, s => inner.Undisturbed s ∧
      ∃ b, (run (Operation.transaction refused inner.operation) s).result = .ok b ∧
        (next (.ok b)).Undisturbed (run inner.operation s).store

/-- Where nothing is rejected, transactions make no difference. -/
theorem operation_eq_direct {ε α : Type} (w : Routine ε α) {s : Store} (h : w.Undisturbed s) :
    run w.operation s = run w.direct s := by
  induction w generalizing s with
  | finish result => rfl
  | call c next ih =>
    obtain ⟨b, hb, hnext⟩ := h
    rw [operation, direct, run_attempt_bind, run_attempt_bind, hb, ih _ hnext]
  | transaction refused inner next inner_ih ih =>
    obtain ⟨hinner, b, hb, hnext⟩ := h
    have committed := transaction_of_ok hb
    rw [committed] at hb
    rw [operation, direct, run_attempt_bind, run_attempt_bind, committed, ← inner_ih hinner, hb,
      ih _ hnext]

/-! ## What is kept -/

/-- A call that was made, with what it returned. -/
structure Deed where
  {ε α : Type}
  call : Call ε α
  result : α

/-- The calls of a routine that have an effect: those that do not fail, outside of transactions that
do. -/
def kept {ε α : Type} : Routine ε α → Store → List Deed
  | finish _, _ => []
  | call c next, s =>
    match (run c.operation s).result with
    | .ok b => ⟨c, b⟩ :: (next (.ok b)).kept (run c.operation s).store
    | .error e => (next (.error e)).kept s
  | transaction refused inner next, s =>
    match (run (Operation.transaction refused inner.operation) s).result with
    | .ok b => inner.kept s ++ (next (.ok b)).kept (run inner.operation s).store
    | .error e => (next (.error e)).kept s

/-- Calls that are made one after the other, each of which returns what it returned before. -/
def Replays : List Deed → Store → Store → Prop
  | [], s, s' => s' = s
  | d :: rest, s, s' => (run d.call.operation s).result = .ok d.result ∧
      Replays rest (run d.call.operation s).store s'

theorem Replays.append {ds ds' : List Deed} {s mid s' : Store} (h : Replays ds s mid)
    (h' : Replays ds' mid s') : Replays (ds ++ ds') s s' := by
  induction ds generalizing s with
  | nil =>
    obtain rfl := h
    exact h'
  | cons d rest ih => exact ⟨h.1, ih h.2⟩

/-- A routine comes to the store that its kept calls come to, made directly. -/
theorem replays_kept {ε α : Type} (w : Routine ε α) (s : Store) :
    Replays (w.kept s) s (run w.operation s).store := by
  induction w generalizing s with
  | finish result => cases result <;> rfl
  | call c next ih =>
    rw [operation, run_attempt_bind, kept]
    cases hresult : (run c.operation s).result with
    | ok b => exact ⟨hresult, ih (.ok b) _⟩
    | error e =>
      rw [Call.store_of_error hresult]
      exact ih (.error e) s
  | transaction refused inner next inner_ih ih =>
    rw [operation, run_attempt_bind, kept]
    cases hresult : (run (Operation.transaction refused inner.operation) s).result with
    | ok b =>
      rw [transaction_of_ok hresult]
      exact (inner_ih s).append (ih (.ok b) _)
    | error e =>
      -- Whatever the inner routine has kept goes with it.
      rw [store_transaction_of_error hresult]
      exact ih (.error e) s

/-! ## Scripts -/

mutual

/-- The routine of a step, before another routine. -/
def ofStep : Step → Routine ScriptError Unit → Routine ScriptError Unit
  | .request r catches, rest => call (.request r) fun
    | .ok _ => rest
    | .error e => if catches then rest else finish (.error (.refused e))
  | .transaction steps abandoned, rest =>
    transaction .refused
      (ofScript steps (abandoned.elim (.ok ()) fun reason => .error (.abandoned reason)))
      fun _ => rest

/-- The routine of a script, which ends as given once all steps are done. -/
def ofScript : List Step → Except ScriptError Unit → Routine ScriptError Unit
  | [], last => finish last
  | step :: rest, last => ofStep step (ofScript rest last)

end

/-- The store after a transaction of a script, if its routine does what the script does. -/
theorem store_transaction_ofScript {w : Routine ScriptError Unit} {r : ScriptRun} {s : Store}
    {abandoned : Option String} (hstore : (run w.operation s).store = r.store)
    (hresult : (run w.operation s).result =
      r.failure.elim (abandoned.elim (.ok ()) fun reason => .error (.abandoned reason)) .error) :
    (run (Operation.transaction .refused w.operation) s).store =
      ((r.onCopy s).transaction s abandoned).after := by
  unfold ScriptRun.onCopy ScriptRun.transaction
  cases copyable : s.uncopyable with
  | some text =>
    rw [transaction_of_uncopyable copyable]
    rfl
  | none =>
    rw [transaction_of_copyable copyable]
    dsimp only
    cases hfailure : r.failure with
    | some e =>
      rw [hfailure] at hresult
      exact store_atomic_of_error hresult
    | none =>
      rw [hfailure] at hresult
      cases abandoned with
      | some reason => exact store_atomic_of_error hresult
      | none =>
        rw [atomic_of_ok hresult]
        exact hstore

/-- The routine of a script leaves the store that the script leaves, and fails as it does. -/
theorem operation_ofScript (steps : List Step) (last : Except ScriptError Unit) (s : Store) :
    (run (ofScript steps last).operation s).store = (runScript steps s).store ∧
    (run (ofScript steps last).operation s).result =
      (runScript steps s).failure.elim last .error := by
  induction steps, s using runScript.induct generalizing last with
  | case1 s =>
    rw [ofScript, operation, runScript]
    cases last <;> exact ⟨rfl, rfl⟩
  | case2 request catches rest s ih =>
    rw [ofScript, ofStep, operation, run_attempt_bind, runScript, ScriptRun.request, Call.operation]
    cases hresult : (run request.operation s).result with
    | ok a => exact ih _ last
    | error e =>
      cases catches with
      | true => exact ih _ last
      | false => exact ⟨rfl, rfl⟩
  | case3 steps abandoned rest s reply inner_ih ih =>
    have after : (run (Operation.transaction .refused (ofScript steps _).operation) s).store =
        reply.after := store_transaction_ofScript (inner_ih _).1 (inner_ih _).2
    rw [ofScript, ofStep, operation, run_attempt_bind, runScript, after]
    exact ih last

end Routine

/-! ## All or nothing -/

end ClusterUpgrade
