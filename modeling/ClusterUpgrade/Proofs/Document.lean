import ClusterUpgrade.Document.JsonReader
import ClusterUpgrade.Proofs.Record

/-!
# Names in documents

The fields of a record stand in record order, and no field is named twice. `Document.inOrder` says
so of every record at any depth, `Document.distinctNames` only that no field is named twice. What is
read from a JSON text is in order (`Json.inOrder_of_read`); of two fields with one name the later
value stays.
-/

namespace ClusterUpgrade

section Entries

variable {α : Type} {entries : List (String × α)} {key : String} {value : α} {e : String × α}

theorem eq_or_mem_of_mem_placeEntry (mem : e ∈ placeEntry key value entries) :
    e = (key, value) ∨ e ∈ entries := by
  induction entries with
  | nil => exact Or.inl (List.mem_singleton.1 mem)
  | cons old rest ih =>
    unfold placeEntry at mem
    split at mem
    · exact List.mem_cons.1 mem
    · rcases List.mem_cons.1 mem with rfl | later
      · exact Or.inr List.mem_cons_self
      · exact (ih later).imp_right (List.mem_cons_of_mem _)

/-- An entry after a write is the one that is written, or it was there before. -/
theorem eq_or_mem_of_mem_putEntry (mem : e ∈ putEntry entries key value) :
    e = (key, value) ∨ e ∈ entries := by
  unfold putEntry at mem
  split at mem
  · obtain ⟨old, hold, rfl⟩ := List.mem_map.1 mem
    split
    · exact Or.inl rfl
    · exact Or.inr hold
  · exact eq_or_mem_of_mem_placeEntry mem

end Entries

namespace Document

mutual

/-- Whether the fields of every record in a document have names of their own. -/
def distinctNames : Document → Bool
  | list items => distinctNamesItems items
  | record fields => decide (fields.map Prod.fst).Nodup && distinctNamesFields fields
  | null | boolean _ | number _ | text _ => true

/-- Whether that is so in each item of a list. -/
def distinctNamesItems : List Document → Bool
  | [] => true
  | d :: rest => d.distinctNames && distinctNamesItems rest

/-- Whether that is so in each field of a record. -/
def distinctNamesFields : List (String × Document) → Bool
  | [] => true
  | (_, d) :: rest => d.distinctNames && distinctNamesFields rest

end

mutual

/-- Whether the fields of every record in a document stand in record order. -/
def inOrder : Document → Bool
  | list items => inOrderItems items
  | record fields => decide (Record.KeysInOrder (fields.map Prod.fst)) && inOrderFields fields
  | null | boolean _ | number _ | text _ => true

/-- Whether that is so in each item of a list. -/
def inOrderItems : List Document → Bool
  | [] => true
  | d :: rest => d.inOrder && inOrderItems rest

/-- Whether that is so in each field of a record. -/
def inOrderFields : List (String × Document) → Bool
  | [] => true
  | (_, d) :: rest => d.inOrder && inOrderFields rest

end

section Names

variable {d v : Document} {items : List Document} {fields : List (String × Document)}
  {name : String}

theorem distinctNames_record_iff : (record fields).distinctNames ↔
    (fields.map Prod.fst).Nodup ∧ ∀ e ∈ fields, e.2.distinctNames := by
  have each : distinctNamesFields fields = true ↔ ∀ e ∈ fields, e.2.distinctNames := by
    induction fields with
    | nil => simp [distinctNamesFields]
    | cons e rest ih => simp [distinctNamesFields, ih]
  rw [distinctNames, Bool.and_eq_true, decide_eq_true_iff, each]

theorem inOrder_list_iff : (list items).inOrder ↔ ∀ d ∈ items, d.inOrder := by
  rw [inOrder]
  induction items with
  | nil => simp [inOrderItems]
  | cons d rest ih => simp [inOrderItems, ih]

theorem inOrder_record_iff : (record fields).inOrder ↔
    Record.KeysInOrder (fields.map Prod.fst) ∧ ∀ e ∈ fields, e.2.inOrder := by
  have each : inOrderFields fields = true ↔ ∀ e ∈ fields, e.2.inOrder := by
    induction fields with
    | nil => simp [inOrderFields]
    | cons e rest ih => simp [inOrderFields, ih]
  rw [inOrder, Bool.and_eq_true, decide_eq_true_iff, each]

theorem field?_record_eq_some (hv : (record fields).field? name = some v) : (name, v) ∈ fields := by
  obtain ⟨before, after, rfl, -⟩ := List.lookup_eq_some_iff.1 hv
  exact List.mem_append_right before List.mem_cons_self

theorem distinctNames_of_field? (h : d.distinctNames) (hv : d.field? name = some v) :
    v.distinctNames := by
  cases d with
  | record fields => exact (distinctNames_record_iff.1 h).2 _ (field?_record_eq_some hv)
  | null | boolean _ | number _ | text _ | list _ => cases hv

theorem inOrder_of_field? (h : d.inOrder) (hv : d.field? name = some v) : v.inOrder := by
  cases d with
  | record fields => exact (inOrder_record_iff.1 h).2 _ (field?_record_eq_some hv)
  | null | boolean _ | number _ | text _ | list _ => cases hv

/-- The record fields of a document have names of their own. -/
theorem nodup_of_field? (h : d.distinctNames) (hv : d.field? name = some (record fields)) :
    (fields.map Prod.fst).Nodup :=
  (distinctNames_record_iff.1 (distinctNames_of_field? h hv)).1

theorem inOrder_putEntry (h : (record fields).inOrder) (name : String) (hv : v.inOrder) :
    (record (putEntry fields name v)).inOrder := by
  rw [inOrder_record_iff] at h ⊢
  refine ⟨Record.keysInOrder_putEntry h.1 name v, fun e mem => ?_⟩
  rcases eq_or_mem_of_mem_putEntry mem with rfl | mem
  · exact hv
  · exact h.2 e mem

mutual

/-- Fields in record order have names of their own. -/
theorem distinctNames_of_inOrder : (d : Document) → d.inOrder → d.distinctNames
  | list items, h => distinctNamesItems_of_inOrder items h
  | record fields, h => by
    rw [distinctNames, Bool.and_eq_true, decide_eq_true_iff]
    rw [inOrder, Bool.and_eq_true, decide_eq_true_iff] at h
    exact ⟨h.1.nodup, distinctNamesFields_of_inOrder fields h.2⟩
  | null, _ | boolean _, _ | number _, _ | text _, _ => rfl

theorem distinctNamesItems_of_inOrder :
    (items : List Document) → inOrderItems items → distinctNamesItems items
  | [], _ => rfl
  | d :: rest, h => by
    rw [inOrderItems, Bool.and_eq_true] at h
    rw [distinctNamesItems, Bool.and_eq_true]
    exact ⟨distinctNames_of_inOrder d h.1, distinctNamesItems_of_inOrder rest h.2⟩

theorem distinctNamesFields_of_inOrder :
    (fields : List (String × Document)) → inOrderFields fields → distinctNamesFields fields
  | [], _ => rfl
  | (_, d) :: rest, h => by
    rw [inOrderFields, Bool.and_eq_true] at h
    rw [distinctNamesFields, Bool.and_eq_true]
    exact ⟨distinctNames_of_inOrder d h.1, distinctNamesFields_of_inOrder rest h.2⟩

end

end Names

/-! ## Steps of a reader -/

section Clean

variable {α ρ : Type}

/-- Whatever document a step of a reader gives, beside what is left to read, is in order. -/
def Clean (r : Except SyntaxError (Document × ρ)) : Prop := ∀ p, r = .ok p → p.1.inOrder

theorem clean_ok {d : Document} (h : d.inOrder) (rest : ρ) : Clean (.ok (d, rest)) :=
  fun _ hp => Except.ok.inj hp ▸ h

theorem clean_error (e : SyntaxError) : Clean (.error e : Except SyntaxError (Document × ρ)) :=
  nofun

theorem clean_map {r : Except SyntaxError α} {f : α → Document × ρ}
    (h : ∀ a, (f a).1.inOrder) : Clean (r.map f) := by
  cases r with
  | error e => exact clean_error e
  | ok a => exact clean_ok (h a) _

theorem exists_of_bind_eq_ok {ε β : Type} {r : Except ε α} {f : α → Except ε β} {b : β}
    (h : r >>= f = .ok b) : ∃ a, r = .ok a ∧ f a = .ok b := by
  cases r with
  | error e => cases h
  | ok a => exact ⟨a, rfl, h⟩

theorem clean_bind {r : Except SyntaxError α} {f : α → Except SyntaxError (Document × ρ)}
    (h : ∀ a, r = .ok a → Clean (f a)) : Clean (r >>= f) := by
  intro p hp
  obtain ⟨a, ha, hp⟩ := exists_of_bind_eq_ok hp
  exact h a ha p hp

/-- A list that is collected from its end on. -/
theorem inOrder_reverse {items : List Document} (h : (list items).inOrder) :
    (list items.reverse).inOrder := by
  rw [inOrder_list_iff] at h ⊢
  exact fun d mem => h d (List.mem_reverse.1 mem)

theorem inOrder_cons {d : Document} {items : List Document} (hd : d.inOrder)
    (h : (list items).inOrder) : (list (d :: items)).inOrder := by
  rw [inOrder_list_iff] at h ⊢
  exact List.forall_mem_cons.2 ⟨hd, h⟩

end Clean

/-! ## Documents that are read -/

namespace Json

theorem clean_fail (fault : JsonFault) (rest : List Char) :
    Clean (fail fault rest : Except SyntaxError (Document × List Char)) := clean_error _

theorem clean_failAt (s : List Char) :
    Clean (failAt s : Except SyntaxError (Document × List Char)) := by
  unfold failAt
  split <;> exact clean_fail _ _

theorem clean_word {d : Document} (h : d.inOrder) (letters s : List Char) :
    Clean (word d letters s) := by
  induction letters generalizing s with
  | nil => exact clean_ok h s
  | cons l letters ih =>
    cases s with
    | nil => exact clean_failAt []
    | cons c s =>
      unfold word
      split
      · exact ih s
      · exact clean_failAt _

/-- The steps of the reader that recur, with what they hold of a list or of a record. -/
theorem clean_steps (bound : Nat) : (∀ s, Clean (value bound s)) ∧
    (∀ seen s, (list seen).inOrder → Clean (items bound seen s)) ∧
    ∀ seen s, (record seen).inOrder → Clean (fields bound seen s) := by
  induction bound with
  | zero => exact ⟨clean_failAt, fun _ s _ => clean_failAt s, fun _ s _ => clean_failAt s⟩
  | succ bound ih =>
    obtain ⟨cleanValue, cleanItems, cleanFields⟩ := ih
    refine ⟨fun s => ?_, fun seen s hseen => ?_, fun seen s hseen => ?_⟩
    · unfold value
      split
      · exact clean_map fun _ => rfl
      · split
        · exact clean_ok rfl _
        · exact cleanItems _ _ rfl
      · split
        · exact clean_ok rfl _
        · exact cleanFields _ _ rfl
      · exact clean_word rfl _ _
      · exact clean_word rfl _ _
      · exact clean_word rfl _ _
      · split
        · exact clean_map fun _ => rfl
        · exact clean_failAt _
    · unfold items
      refine clean_bind fun p hp => ?_
      have more := inOrder_cons (cleanValue s p hp) hseen
      dsimp only
      split
      · exact cleanItems _ _ more
      · exact clean_ok (inOrder_reverse more) _
      · exact clean_fail _ _
    · unfold fields
      split
      · refine clean_bind fun p _ => ?_
        dsimp only
        split
        · refine clean_bind fun q hq => ?_
          have more := inOrder_putEntry hseen p.1 (cleanValue _ q hq)
          split
          · exact cleanFields _ _ more
          · exact clean_ok more _
          · exact clean_fail _ _
        · exact clean_fail _ _
      · exact clean_fail _ _

/-- A document that is read from a text is in order. -/
theorem inOrder_of_read {text : String} {d : Document} (h : read text = .ok d) :
    d.inOrder := by
  unfold read at h
  obtain ⟨p, hp, h⟩ := exists_of_bind_eq_ok h
  dsimp only at h
  split at h
  · obtain rfl := Except.ok.inj h
    exact (clean_steps _).1 _ p hp
  · cases h

end Json

end Document

end ClusterUpgrade
