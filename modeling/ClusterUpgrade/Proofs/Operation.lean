import ClusterUpgrade.Store.Operation

/-!
# Operations without their events

`Operation.eval` is what an operation comes to apart from what it logs: a failure, or a result with
the store after it. It turns the sequence of operations into the sequence of `Except`
(`eval_bind`), and it is all that a transaction on a store that can be copied shows
(`transaction_of_eval_ok`, `transaction_of_eval_error`).

A property of operations may pass from the parts of an operation to the whole
(`Operation.Composes`). One such property is `Operation.Keeps`, which says that a property of the
store outlasts an operation.
-/

namespace ClusterUpgrade.Operation

variable {ε α β : Type}

/-- The result of an operation with the store after it. -/
def eval (op : Operation ε α) (s : Store) : Except ε (α × Store) :=
  (op.run s).result.map fun a => (a, (op.run s).store)

@[simp] theorem eval_pure (a : α) (s : Store) :
    eval (pure a : Operation ε α) s = .ok (a, s) := rfl

@[simp] theorem eval_reading (f : Store → Except ε α) (s : Store) :
    eval (reading f) s = (f s).map fun a => (a, s) := rfl

theorem eval_bind (op : Operation ε α) (f : α → Operation ε β) (s : Store) :
    eval (op >>= f) s = (eval op s).bind fun p => eval (f p.1) p.2 := by
  cases h : (run op s).result with
  | ok a => rw [eval, run_bind_of_ok h, eval, h]; rfl
  | error e => rw [eval, run_bind_of_error h, eval, h]; rfl

theorem eval_bind_of_ok {op : Operation ε α} {f : α → Operation ε β} {s s' : Store} {a : α}
    (h : eval op s = .ok (a, s')) : eval (op >>= f) s = eval (f a) s' := by
  rw [eval_bind, h]
  rfl

theorem eval_bind_of_error {op : Operation ε α} {f : α → Operation ε β} {s : Store} {e : ε}
    (h : eval op s = .error e) : eval (op >>= f) s = .error e := by
  rw [eval_bind, h]
  rfl

@[simp] theorem eval_writing (f : Store → Except ε Store) (s : Store) :
    eval (writing f) s = (f s).map fun s' => ((), s') := by
  simp only [eval, run, writing]
  cases f s <;> rfl

@[simp] theorem mapError_ok {δ : Type} (f : ε → δ) (a : α) :
    (Except.ok a : Except ε α).mapError f = .ok a := rfl

@[simp] theorem mapError_error {δ : Type} (f : ε → δ) (e : ε) :
    (Except.error e : Except ε α).mapError f = .error (f e) := rfl

/-- An operation that logs nothing and succeeds hands its store to the next one. -/
theorem run_bind_of_silent {op : Operation ε α} {f : α → Operation ε β} {s s' : Store} {a : α}
    (h : run op s = ⟨s', [], .ok a⟩) : run (op >>= f) s = run (f a) s' := by
  rw [run_bind, h]
  rfl

/-- Operations that only log come to nothing, over a list of any length. -/
theorem eval_each_of_silent {f : α → Operation ε β} {b : β} {s : Store}
    (silent : ∀ a, eval (f a) s = .ok (b, s)) (as : List α) :
    eval (each f as) s = .ok (as.map fun _ => b, s) := by
  induction as with
  | nil => rfl
  | cons a rest ih =>
    rw [each, eval_bind, silent]
    simp only [Except.bind]
    rw [eval_bind, ih]
    rfl

theorem store_of_eval_ok {op : Operation ε α} {s s' : Store} {a : α}
    (h : eval op s = .ok (a, s')) : (run op s).store = s' := by
  unfold eval at h
  cases hresult : (run op s).result with
  | ok b =>
    rw [hresult] at h
    exact congrArg Prod.snd (Except.ok.inj h)
  | error e =>
    rw [hresult] at h
    cases h

theorem result_atomic_eq (op : Operation ε α) (s : Store) :
    (run (atomic op) s).result = (eval op s).map Prod.fst := by
  rw [result_atomic, eval]
  cases (run op s).result <;> rfl

theorem result_atomic_eq_error_iff {op : Operation ε α} {s : Store} {e : ε} :
    (run (atomic op) s).result = .error e ↔ eval op s = .error e := by
  rw [result_atomic_eq]
  cases eval op s <;> simp [Except.map]

theorem atomic_of_eval_ok {op : Operation ε α} {s s' : Store} {a : α}
    (h : eval op s = .ok (a, s')) :
    (run (atomic op) s).result = .ok a ∧ (run (atomic op) s).store = s' := by
  have result : (run (atomic op) s).result = .ok a := by
    rw [result_atomic_eq, h]
    rfl
  refine ⟨result, ?_⟩
  rw [atomic_of_ok ((result_atomic op s).symm.trans result)]
  exact store_of_eval_ok h

theorem atomic_of_eval_error {op : Operation ε α} {s : Store} {e : ε}
    (h : eval op s = .error e) :
    (run (atomic op) s).result = .error e ∧ (run (atomic op) s).store = s := by
  have result : (run (atomic op) s).result = .error e := by
    rw [result_atomic_eq, h]
    rfl
  exact ⟨result, store_atomic_of_error ((result_atomic op s).symm.trans result)⟩

/-! ## Transactions -/

section Transaction

variable {refused : StoreError → ε} {op : Operation ε α} {s s' : Store} {a : α} {e : ε}

theorem result_transaction_eq_ok_iff : (run (transaction refused op) s).result = .ok a ↔
    s.uncopyable = none ∧ ∃ s', eval op s = .ok (a, s') := by
  cases copyable : s.uncopyable with
  | some text => simp [transaction_of_uncopyable copyable]
  | none =>
    rw [transaction_of_copyable copyable, result_atomic_eq, and_iff_right rfl]
    cases eval op s with
    | error e => simp [Except.map]
    | ok p => simp [Except.map, Prod.ext_iff]

theorem result_transaction_eq_error_iff : (run (transaction refused op) s).result = .error e ↔
    (∃ text, s.uncopyable = some text ∧ e = refused (.notCopyable text)) ∨
      s.uncopyable = none ∧ eval op s = .error e := by
  cases copyable : s.uncopyable with
  | some text => simp [transaction_of_uncopyable copyable, eq_comm]
  | none =>
    rw [transaction_of_copyable copyable, result_atomic_eq_error_iff]
    simp

theorem eval_of_result_transaction (copyable : s.uncopyable = none)
    (h : (run (transaction refused op) s).result = .error e) : eval op s = .error e := by
  rcases result_transaction_eq_error_iff.1 h with ⟨text, lost, -⟩ | ⟨-, failed⟩
  · rw [copyable] at lost
    cases lost
  · exact failed

/-- A transaction that succeeds comes to what it comes to without the copy. -/
theorem transaction_of_ok (h : (run (transaction refused op) s).result = .ok a) :
    run (transaction refused op) s = run op s := by
  cases copyable : s.uncopyable with
  | some text =>
    rw [transaction_of_uncopyable copyable] at h
    cases h
  | none =>
    rw [transaction_of_copyable copyable, result_atomic] at h
    rw [transaction_of_copyable copyable, atomic_of_ok h]

theorem transaction_of_eval_ok (copyable : s.uncopyable = none) (h : eval op s = .ok (a, s')) :
    (run (transaction refused op) s).result = .ok a ∧
      (run (transaction refused op) s).store = s' := by
  rw [transaction_of_copyable copyable]
  exact atomic_of_eval_ok h

theorem transaction_of_eval_error (copyable : s.uncopyable = none) (h : eval op s = .error e) :
    (run (transaction refused op) s).result = .error e ∧
      (run (transaction refused op) s).store = s := by
  rw [transaction_of_copyable copyable]
  exact atomic_of_eval_error h

end Transaction

/-! ## Properties of operations that come from their parts -/

/-- A property that an operation has when its parts have it. -/
structure Composes (Q : (α : Type) → Operation ε α → Prop) : Prop where
  pure {α : Type} (a : α) : Q α (Pure.pure a)
  fail {α : Type} (e : ε) : Q α (Operation.fail e)
  bind {α β : Type} {op : Operation ε α} {f : α → Operation ε β} :
    Q α op → (∀ a, Q β (f a)) → Q β (op >>= f)

namespace Composes

variable {Q : (α : Type) → Operation ε α → Prop} (composes : Composes Q)

include composes

theorem when {op : Operation ε Unit} (condition : Bool) (h : Q Unit op) :
    Q Unit (Operation.when condition op) := by
  cases condition with
  | true => exact h
  | false => exact composes.pure ()

theorem each {f : α → Operation ε β} {as : List α} (h : ∀ a ∈ as, Q β (f a)) :
    Q (List β) (Operation.each f as) := by
  induction as with
  | nil => exact composes.pure []
  | cons a rest ih =>
    obtain ⟨first, others⟩ := List.forall_mem_cons.1 h
    exact composes.bind first fun b => composes.bind (ih others) fun bs => composes.pure (b :: bs)

end Composes

/-! ## Properties that outlast an operation -/

/-- A property of the store that still holds after an operation, whether or not the operation
fails. -/
def Keeps (P : Store → Prop) (op : Operation ε α) : Prop := ∀ s, P s → P (run op s).store

namespace Keeps

variable {P : Store → Prop} {op : Operation ε α}

theorem pure (a : α) : Keeps P (Pure.pure a : Operation ε α) := fun _ h => h

theorem fail (e : ε) : Keeps P (Operation.fail e : Operation ε α) := fun _ h => h

theorem reading (f : Store → Except ε α) : Keeps P (Operation.reading f) := fun _ h => h

theorem writing {f : Store → Except ε Store} (h : ∀ s s', f s = .ok s' → P s → P s') :
    Keeps P (Operation.writing f) := by
  intro s hs
  cases hf : f s with
  | error e =>
    rw [store_writing_of_error hf]
    exact hs
  | ok s' =>
    have written : (run (Operation.writing f) s).store = s' := by simp [run, Operation.writing, hf]
    rw [written]
    exact h s s' hf hs

theorem bind {f : α → Operation ε β} (first : Keeps P op) (next : ∀ a, Keeps P (f a)) :
    Keeps P (op >>= f) := by
  intro s hs
  have mid := first s hs
  cases hresult : (run op s).result with
  | error e =>
    rw [run_bind_of_error hresult]
    exact mid
  | ok a =>
    rw [run_bind_of_ok hresult]
    exact next a _ mid

theorem composes : Composes fun _ (op : Operation ε _) => Keeps P op := ⟨pure, fail, bind⟩

theorem atomic (h : Keeps P op) : Keeps P (Operation.atomic op) := by
  intro s hs
  cases hresult : (run op s).result with
  | error e =>
    rw [store_atomic_of_error hresult]
    exact hs
  | ok a =>
    rw [atomic_of_ok hresult]
    exact h s hs

theorem transaction (refused : StoreError → ε) (h : Keeps P op) :
    Keeps P (Operation.transaction refused op) := by
  intro s hs
  cases copyable : s.uncopyable with
  | some text =>
    rw [transaction_of_uncopyable copyable]
    exact hs
  | none =>
    rw [transaction_of_copyable copyable]
    exact h.atomic s hs

end Keeps

end ClusterUpgrade.Operation
