import ClusterUpgrade.Log.Basic
import ClusterUpgrade.Store.Write

/-!
# Operations on a store

An operation takes a store to an outcome: the store afterwards, the log events on the way, and
either a result or the reason of a failure. Operations run one after the other
(`Operation.run_bind`); the first failure ends the run.

`Operation.atomic` makes an operation all or nothing: after a failure the store is what it was
(`Operation.store_atomic_of_error`), and otherwise the operation is unchanged
(`Operation.atomic_of_ok`). `Operation.transaction` works on a copy of the store to that end, so it
also needs a store that can be copied.
-/

namespace ClusterUpgrade

/-- What an operation comes to. -/
structure Outcome (ε α : Type) where
  store : Store
  events : List Log.Event
  result : Except ε α

/-- A computation that reads and writes a store, logs events and may fail. -/
def Operation (ε α : Type) := Store → Outcome ε α

namespace Operation

variable {ε δ α β : Type}

def run (op : Operation ε α) (s : Store) : Outcome ε α := op s

/-- What a second operation makes of the outcome of a first one. -/
def after (o : Outcome ε α) (f : α → Operation ε β) : Outcome ε β :=
  match o.result with
  | .error e => ⟨o.store, o.events, .error e⟩
  | .ok a =>
    let next := f a o.store
    ⟨next.store, o.events ++ next.events, next.result⟩

instance : Monad (Operation ε) where
  pure a := fun s => ⟨s, [], .ok a⟩
  bind op f := fun s => after (op s) f

/-- Fails and leaves the store as it is. -/
def fail (e : ε) : Operation ε α := fun s => ⟨s, [], .error e⟩

/-- Logs an event. -/
def tell (event : Log.Event) : Operation ε Unit := fun s => ⟨s, [event], .ok ()⟩

def look (f : Store → α) : Operation ε α := fun s => ⟨s, [], .ok (f s)⟩

/-- Reads the store, which may fail. -/
def reading (f : Store → Except ε α) : Operation ε α := fun s => ⟨s, [], f s⟩

/-- Writes the store; a write that fails changes nothing. -/
def writing (f : Store → Except ε Store) : Operation ε Unit := fun s =>
  match f s with
  | .ok s' => ⟨s', [], .ok ()⟩
  | .error e => ⟨s, [], .error e⟩

/-- Does an operation, or nothing. -/
def «when» (condition : Bool) (op : Operation ε Unit) : Operation ε Unit :=
  if condition then op else pure ()

/-- One operation after the other, over a list. -/
def each (f : α → Operation ε β) : List α → Operation ε (List β)
  | [] => pure []
  | a :: rest => do
    let b ← f a
    let bs ← each f rest
    return b :: bs

/-- All or nothing: after a failure the store is what it was before. -/
def atomic (op : Operation ε α) : Operation ε α := fun s =>
  let o := op s
  match o.result with
  | .ok a => ⟨o.store, o.events, .ok a⟩
  | .error e => ⟨s, o.events, .error e⟩

/-- All or nothing on a copy of the store, if the store can be copied. -/
def transaction (refused : StoreError → ε) (op : Operation ε α) : Operation ε α := fun s =>
  match s.uncopyable with
  | some text => ⟨s, [], .error (refused (.notCopyable text))⟩
  | none => atomic op s

/-! ## Laws -/

@[simp] theorem run_pure (a : α) (s : Store) :
    run (pure a : Operation ε α) s = ⟨s, [], .ok a⟩ := rfl

theorem run_bind (op : Operation ε α) (f : α → Operation ε β) (s : Store) :
    run (op >>= f) s = after (run op s) f := rfl

@[simp] theorem run_fail (e : ε) (s : Store) :
    run (fail e : Operation ε α) s = ⟨s, [], .error e⟩ := rfl

@[simp] theorem run_tell (event : Log.Event) (s : Store) :
    run (tell event : Operation ε Unit) s = ⟨s, [event], .ok ()⟩ := rfl

theorem run_bind_of_ok {op : Operation ε α} {f : α → Operation ε β} {s : Store} {a : α}
    (h : (run op s).result = .ok a) :
    run (op >>= f) s =
      ⟨(run (f a) (run op s).store).store,
        (run op s).events ++ (run (f a) (run op s).store).events,
        (run (f a) (run op s).store).result⟩ := by
  rw [run_bind, after, h]; rfl

theorem run_bind_of_error {op : Operation ε α} {f : α → Operation ε β} {s : Store} {e : ε}
    (h : (run op s).result = .error e) :
    run (op >>= f) s = ⟨(run op s).store, (run op s).events, .error e⟩ := by
  rw [run_bind, after, h]

theorem store_writing_of_error {f : Store → Except ε Store} {s : Store} {e : ε}
    (h : f s = .error e) : (run (writing f) s).store = s := by
  simp [run, writing, h]

@[simp] theorem result_atomic (op : Operation ε α) (s : Store) :
    (run (atomic op) s).result = (run op s).result := by
  simp only [run, atomic]; split <;> simp_all

theorem store_atomic_of_error {op : Operation ε α} {s : Store} {e : ε}
    (h : (run op s).result = .error e) : (run (atomic op) s).store = s := by
  simp only [run] at h; simp [run, atomic, h]

theorem atomic_of_ok {op : Operation ε α} {s : Store} {a : α}
    (h : (run op s).result = .ok a) : run (atomic op) s = run op s := by
  simp only [run] at h ⊢; simp only [atomic, h]
  generalize op s = o at h
  obtain ⟨store, events, result⟩ := o
  simp_all

theorem transaction_of_copyable {s : Store} (copyable : s.uncopyable = none)
    (refused : StoreError → ε) (op : Operation ε α) :
    run (transaction refused op) s = run (atomic op) s := by
  simp only [run, transaction, copyable]

theorem transaction_of_uncopyable {s : Store} {text : String} (h : s.uncopyable = some text)
    (refused : StoreError → ε) (op : Operation ε α) :
    run (transaction refused op) s = ⟨s, [], .error (refused (.notCopyable text))⟩ := by
  simp only [run, transaction, h]

theorem store_transaction_of_error {refused : StoreError → ε} {op : Operation ε α} {s : Store}
    {e : ε} (h : (run (transaction refused op) s).result = .error e) :
    (run (transaction refused op) s).store = s := by
  cases copyable : s.uncopyable with
  | some text => rw [transaction_of_uncopyable copyable]
  | none =>
    rw [transaction_of_copyable copyable] at h ⊢
    exact store_atomic_of_error (by rwa [result_atomic] at h)

end Operation

end ClusterUpgrade
