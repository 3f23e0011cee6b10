/-!
# Ordered records

A record maps text keys to values and remembers an order: keys that are written like an array index
(`0` to `4294967294`, no sign, no leading zero) come first, by value; all other keys follow in the
order in which they were first written. Writing a key again keeps its place; erasing it gives the
place up.

* `Record.insert`, `Record.erase`: the two writes;
* `Record.get?_insert`, `Record.get?_erase`: what they do to a look-up;
* `Record.nodup`: no key occurs twice, whatever was written.
-/

namespace ClusterUpgrade

/-! ## Keys -/

/-- The value of a key that is written like an array index. -/
def indexKey? (key : String) : Option Nat :=
  match key.toList with
  | [] => none
  | ['0'] => some 0
  | '0' :: _ => none
  | digits =>
    if digits.all Char.isDigit then
      let value := digits.foldl (fun n c => n * 10 + (c.toNat - '0'.toNat)) 0
      if value ≤ 4294967294 then some value else none
    else none

/-- Whether a newly written key goes before a key that is already there. -/
def keyPrecedes (new old : String) : Bool :=
  match indexKey? new, indexKey? old with
  | some a, some b => a < b
  | some _, none => true
  | none, _ => false

/-! ## Writes on entry lists -/

section Entries

variable {α : Type}

/-- Puts an entry with a new key in its place. -/
def placeEntry (key : String) (value : α) : List (String × α) → List (String × α)
  | [] => [(key, value)]
  | e :: rest =>
    if keyPrecedes key e.1 then (key, value) :: e :: rest else e :: placeEntry key value rest

/-- Writes an entry: in place if the key is there, else where new keys go. -/
def putEntry (entries : List (String × α)) (key : String) (value : α) : List (String × α) :=
  if key ∈ entries.map Prod.fst then
    entries.map fun e => if e.1 = key then (key, value) else e
  else placeEntry key value entries

theorem lookup_entry_cons (key : String) (e : String × α) (rest : List (String × α)) :
    (e :: rest).lookup key = if key = e.1 then some e.2 else rest.lookup key := by
  by_cases h : key = e.1
  · rw [if_pos h, h, List.lookup_cons_self]
  · rw [if_neg h, List.lookup_cons, beq_eq_false_iff_ne.2 h]

theorem mem_keys_placeEntry {key k : String} {value : α} {entries : List (String × α)} :
    k ∈ (placeEntry key value entries).map Prod.fst ↔ k = key ∨ k ∈ entries.map Prod.fst := by
  induction entries with
  | nil => simp [placeEntry]
  | cons e rest ih => unfold placeEntry; split <;> grind

theorem nodup_placeEntry {key : String} {value : α} {entries : List (String × α)}
    (fresh : key ∉ entries.map Prod.fst) (h : (entries.map Prod.fst).Nodup) :
    ((placeEntry key value entries).map Prod.fst).Nodup := by
  induction entries with
  | nil => simp [placeEntry]
  | cons e rest ih =>
    unfold placeEntry; split
    · simp only [List.map_cons] at fresh h ⊢
      exact List.nodup_cons.2 ⟨fresh, h⟩
    · simp only [List.map_cons, List.nodup_cons, List.mem_cons, not_or] at fresh h ⊢
      exact ⟨fun m => (mem_keys_placeEntry.1 m).elim (fun e => fresh.1 e.symm) h.1, ih fresh.2 h.2⟩

theorem keys_overwrite (key : String) (value : α) (entries : List (String × α)) :
    (entries.map fun e => if e.1 = key then (key, value) else e).map Prod.fst =
      entries.map Prod.fst := by
  induction entries with
  | nil => rfl
  | cons e rest ih => by_cases h : e.1 = key <;> simp_all

theorem nodup_putEntry {entries : List (String × α)} (h : (entries.map Prod.fst).Nodup)
    (key : String) (value : α) : ((putEntry entries key value).map Prod.fst).Nodup := by
  unfold putEntry; split
  · rw [keys_overwrite]; exact h
  · next fresh => exact nodup_placeEntry fresh h

theorem lookup_placeEntry {key k : String} {value : α} {entries : List (String × α)}
    (fresh : key ∉ entries.map Prod.fst) :
    (placeEntry key value entries).lookup k = if k = key then some value else entries.lookup k := by
  induction entries with
  | nil => simp [placeEntry, lookup_entry_cons]
  | cons e rest ih =>
    simp only [List.map_cons, List.mem_cons, not_or] at fresh
    unfold placeEntry; split
    · simp [lookup_entry_cons]
    · rw [lookup_entry_cons, lookup_entry_cons, ih fresh.2]; grind

theorem lookup_overwrite_of_ne {key k : String} (value : α) (entries : List (String × α))
    (h : k ≠ key) :
    (entries.map fun e => if e.1 = key then (key, value) else e).lookup k = entries.lookup k := by
  induction entries with
  | nil => rfl
  | cons e rest ih => simp only [List.map_cons, lookup_entry_cons, ih]; grind

theorem lookup_overwrite {key : String} {value : α} {entries : List (String × α)}
    (present : key ∈ entries.map Prod.fst) :
    (entries.map fun e => if e.1 = key then (key, value) else e).lookup key = some value := by
  induction entries with
  | nil => simp at present
  | cons e rest ih => simp only [List.map_cons, lookup_entry_cons, List.mem_cons] at *; grind

theorem lookup_putEntry (entries : List (String × α)) (key k : String) (value : α) :
    (putEntry entries key value).lookup k = if k = key then some value else entries.lookup k := by
  unfold putEntry; split
  · next present =>
    split
    · next h => subst h; exact lookup_overwrite present
    · next h => exact lookup_overwrite_of_ne value entries h
  · next fresh => exact lookup_placeEntry fresh

theorem lookup_filter_ne (entries : List (String × α)) (key k : String) :
    (entries.filter (·.1 ≠ key)).lookup k = if k = key then none else entries.lookup k := by
  induction entries with
  | nil => simp
  | cons e rest ih =>
    rw [List.filter_cons, lookup_entry_cons]
    split
    · rw [lookup_entry_cons, ih]; grind
    · rw [ih]; grind

end Entries

/-! ## Records -/

/-- Entries with distinct keys, in record order. -/
structure Record (α : Type) where
  entries : List (String × α)
  nodup : (entries.map Prod.fst).Nodup
  deriving DecidableEq

namespace Record

variable {α β : Type}

/-- The record without entries. -/
def empty : Record α := ⟨[], List.nodup_nil⟩

instance : Inhabited (Record α) := ⟨empty⟩

/-- The value of a key. -/
def get? (r : Record α) (key : String) : Option α := r.entries.lookup key

def has (r : Record α) (key : String) : Bool := (r.get? key).isSome

/-- The keys, in record order. -/
def keys (r : Record α) : List String := r.entries.map Prod.fst

/-- The values, in record order. -/
def values (r : Record α) : List α := r.entries.map Prod.snd

/-- Writes a key. -/
def insert (r : Record α) (key : String) (value : α) : Record α :=
  ⟨putEntry r.entries key value, nodup_putEntry r.nodup key value⟩

/-- Removes a key. -/
def erase (r : Record α) (key : String) : Record α :=
  ⟨r.entries.filter (·.1 ≠ key),
    (List.filter_sublist.map Prod.fst).nodup r.nodup⟩

/-- Keeps the entries whose key has a property. -/
def filterKeys (p : String → Bool) (r : Record α) : Record α :=
  ⟨r.entries.filter fun e => p e.1, (List.filter_sublist.map Prod.fst).nodup r.nodup⟩

/-- Writes the entries one after the other; of two with one key the later value stays. -/
def ofList (entries : List (String × α)) : Record α :=
  entries.foldl (fun r e => r.insert e.1 e.2) empty

/-- Writes all entries of `s` over `r`. -/
def overlay (r s : Record α) : Record α := s.entries.foldl (fun r e => r.insert e.1 e.2) r

/-- Changes the values and keeps the keys. -/
def map (f : α → β) (r : Record α) : Record β :=
  ⟨r.entries.map fun e => (e.1, f e.2), by simpa [Function.comp_def] using r.nodup⟩

@[simp] theorem get?_empty (key : String) : (empty : Record α).get? key = none := rfl

@[simp] theorem get?_insert (r : Record α) (key k : String) (value : α) :
    (r.insert key value).get? k = if k = key then some value else r.get? k :=
  lookup_putEntry _ _ _ _

@[simp] theorem get?_erase (r : Record α) (key k : String) :
    (r.erase key).get? k = if k = key then none else r.get? k :=
  lookup_filter_ne _ _ _

@[simp] theorem get?_filterKeys (p : String → Bool) (r : Record α) (key : String) :
    (r.filterKeys p).get? key = if p key then r.get? key else none := by
  simp only [get?, filterKeys]
  induction r.entries with
  | nil => simp
  | cons e rest ih =>
    rw [List.filter_cons, lookup_entry_cons]
    split
    · rw [lookup_entry_cons, ih]; grind
    · rw [ih]; grind

theorem lookup_isSome_iff (entries : List (String × α)) (key : String) :
    (entries.lookup key).isSome ↔ key ∈ entries.map Prod.fst := by
  induction entries with
  | nil => simp
  | cons e rest ih => rw [lookup_entry_cons]; split <;> simp_all

theorem mem_keys_iff (r : Record α) (key : String) : key ∈ r.keys ↔ (r.get? key).isSome :=
  (lookup_isSome_iff _ _).symm

@[simp] theorem get?_map (f : α → β) (r : Record α) (key : String) :
    (r.map f).get? key = (r.get? key).map f := by
  simp only [get?, map]
  induction r.entries with
  | nil => rfl
  | cons e rest ih => simp only [List.map_cons, lookup_entry_cons, ih]; split <;> rfl

theorem nodup_keys (r : Record α) : r.keys.Nodup := r.nodup

end Record

end ClusterUpgrade
