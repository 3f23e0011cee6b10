import ClusterUpgrade.Record

/-!
# Records as maps

What a run of writes does to a look-up. The writes of `Record.ofList`, `Record.overlay` and the
folds of merges are all of one form: each item of a list is written under a key of its own.

Writes keep the keys in record order (`KeysInOrder`), and entries that stand in that order already
are written as they stand (`entries_ofList`).
-/

namespace ClusterUpgrade.Record

variable {α γ : Type}

/-! ## Entries -/

theorem get?_eq_some_iff {r : Record α} {key : String} {value : α} :
    r.get? key = some value ↔ (key, value) ∈ r.entries := by
  obtain ⟨entries, nodup⟩ := r
  simp only [get?]
  induction entries with
  | nil => simp
  | cons e rest ih =>
    simp only [List.map_cons, List.nodup_cons] at nodup
    have hrest := ih nodup.2
    rw [lookup_entry_cons, List.mem_cons]
    by_cases h : key = e.1
    · subst h
      have absent : (e.1, value) ∉ rest := fun m => nodup.1 (List.mem_map.2 ⟨_, m, rfl⟩)
      rw [if_pos rfl, Option.some.injEq, or_iff_left absent, Prod.ext_iff]
      exact ⟨fun hv => ⟨rfl, hv.symm⟩, fun hv => hv.2.symm⟩
    · have differs : (key, value) ≠ e := fun he => h (congrArg Prod.fst he)
      rw [if_neg h, hrest, or_iff_right differs]

theorem entries_eq_nil_iff {r : Record α} : r.entries = [] ↔ ∀ key, r.get? key = none := by
  constructor
  · intro h key
    rw [get?, h]
    rfl
  · intro h
    rw [List.eq_nil_iff_forall_not_mem]
    rintro ⟨key, value⟩ hmem
    have := get?_eq_some_iff.2 hmem
    rw [h key] at this
    cases this

theorem has_eq_false_iff {r : Record α} {key : String} : r.has key = false ↔ r.get? key = none := by
  simp [has]

theorem has_iff {r : Record α} {key : String} :
    r.has key = true ↔ ∃ value, r.get? key = some value :=
  Option.isSome_iff_exists

theorem eq_of_entries_eq {r s : Record α} (h : r.entries = s.entries) : r = s := by
  cases r
  cases s
  cases h
  rfl

/-- Writing what is there already changes nothing. -/
theorem insert_eq_self {r : Record α} {key : String} {value : α} (h : r.get? key = some value) :
    r.insert key value = r := by
  apply eq_of_entries_eq
  have mem : key ∈ r.entries.map Prod.fst := by
    apply (mem_keys_iff r key).2
    rw [h]
    rfl
  show putEntry r.entries key value = r.entries
  rw [putEntry, if_pos mem]
  refine (List.map_congr_left ?_).trans (List.map_id _)
  rintro ⟨k, v⟩ he
  split
  · next hk =>
    cases hk
    have hv := get?_eq_some_iff.2 he
    rw [h, Option.some.injEq] at hv
    rw [hv]
    rfl
  · rfl

theorem filterKeys_eq_self {p : String → Bool} {r : Record α} (h : ∀ key, r.has key → p key) :
    r.filterKeys p = r := by
  apply eq_of_entries_eq
  apply List.filter_eq_self.2
  rintro ⟨key, value⟩ mem
  exact h key (has_iff.2 ⟨value, get?_eq_some_iff.2 mem⟩)

/-- A written key takes a place of its own; all other keys stay in theirs. -/
theorem filter_keys_insert (r : Record α) (key : String) (value : α) :
    (r.insert key value).keys.filter (· ≠ key) = r.keys.filter (· ≠ key) := by
  show ((putEntry r.entries key value).map Prod.fst).filter (· ≠ key) =
    (r.entries.map Prod.fst).filter (· ≠ key)
  unfold putEntry
  split
  · rw [keys_overwrite]
  · induction r.entries with
    | nil => simp [placeEntry]
    | cons e rest ih =>
      unfold placeEntry
      split
      · simp
      · rw [List.map_cons, List.map_cons, List.filter_cons, List.filter_cons, ih]

/-! ## A run of writes -/

section Writes

variable (key : γ → String) (value : γ → α)

theorem get?_foldl_insert_of_not_mem {items : List γ} {k : String} (absent : k ∉ items.map key)
    (r : Record α) :
    (items.foldl (fun r i => r.insert (key i) (value i)) r).get? k = r.get? k := by
  induction items generalizing r with
  | nil => rfl
  | cons i rest ih =>
    simp only [List.map_cons, List.mem_cons, not_or] at absent
    rw [List.foldl_cons, ih absent.2, get?_insert, if_neg absent.1]

theorem get?_foldl_insert_of_mem {items : List γ} (distinct : (items.map key).Nodup) {i : γ}
    (mem : i ∈ items) (r : Record α) :
    (items.foldl (fun r i => r.insert (key i) (value i)) r).get? (key i) = some (value i) := by
  induction items generalizing r with
  | nil => cases mem
  | cons j rest ih =>
    rw [List.map_cons, List.nodup_cons] at distinct
    rw [List.foldl_cons]
    rcases List.mem_cons.1 mem with rfl | h
    · rw [get?_foldl_insert_of_not_mem key value distinct.1, get?_insert, if_pos rfl]
    · exact ih distinct.2 h _

/-- The keys after a run of writes, whether or not they are distinct. -/
theorem has_foldl_insert (items : List γ) (r : Record α) (k : String) :
    (items.foldl (fun r i => r.insert (key i) (value i)) r).has k =
      (decide (k ∈ items.map key) || r.has k) := by
  induction items generalizing r with
  | nil => simp
  | cons i rest ih =>
    rw [List.foldl_cons, ih]
    have written : (r.insert (key i) (value i)).has k = (decide (k = key i) || r.has k) := by
      simp only [has, get?_insert]
      by_cases h : k = key i <;> simp [h]
    rw [written, List.map_cons]
    by_cases h : k = key i <;> simp [h]

/-- What is found after a run of writes has been written or was there before. -/
theorem exists_of_get?_foldl_insert {items : List γ} {r : Record α} {k : String} {v : α}
    (h : (items.foldl (fun r i => r.insert (key i) (value i)) r).get? k = some v) :
    (∃ i ∈ items, key i = k ∧ value i = v) ∨ r.get? k = some v := by
  induction items generalizing r with
  | nil => exact Or.inr h
  | cons i rest ih =>
    rcases ih h with ⟨j, hj, hk, hv⟩ | hr
    · exact Or.inl ⟨j, List.mem_cons_of_mem _ hj, hk, hv⟩
    · rw [get?_insert] at hr
      split at hr
      · next hk => exact Or.inl ⟨i, List.mem_cons_self, hk.symm, Option.some.inj hr⟩
      · exact Or.inr hr

/-- Writes of what is there already may be left out. -/
theorem foldl_insert_filter {items : List γ} (distinct : (items.map key).Nodup) {p : γ → Bool}
    {r : Record α} (there : ∀ i ∈ items, p i = false → r.get? (key i) = some (value i)) :
    (items.filter p).foldl (fun r i => r.insert (key i) (value i)) r =
      items.foldl (fun r i => r.insert (key i) (value i)) r := by
  induction items generalizing r with
  | nil => rfl
  | cons i rest ih =>
    rw [List.map_cons, List.nodup_cons] at distinct
    rw [List.foldl_cons]
    cases hp : p i with
    | true =>
      rw [List.filter_cons_of_pos hp, List.foldl_cons]
      apply ih distinct.2
      intro j hj hpj
      have differs : key j ≠ key i := fun e => distinct.1 (e ▸ List.mem_map_of_mem hj)
      rw [get?_insert, if_neg differs]
      exact there j (List.mem_cons_of_mem _ hj) hpj
    | false =>
      rw [List.filter_cons_of_neg (by simp [hp]), insert_eq_self (there i List.mem_cons_self hp)]
      exact ih distinct.2 fun j hj => there j (List.mem_cons_of_mem _ hj)

/-- A key that is written several times keeps the value of the last write. -/
theorem get?_foldl_insert (items : List γ) (r : Record α) (k : String) :
    (items.foldl (fun r i => r.insert (key i) (value i)) r).get? k =
      ((items.filter fun i => key i = k).getLast?.map value).or (r.get? k) := by
  induction items generalizing r with
  | nil => rfl
  | cons i rest ih =>
    rw [List.foldl_cons, ih, get?_insert]
    by_cases h : key i = k
    · rw [List.filter_cons_of_pos (by simp [h]), List.getLast?_cons, if_pos h.symm]
      cases (rest.filter fun i => key i = k).getLast? <;> rfl
    · rw [List.filter_cons_of_neg (by simp [h]), if_neg fun e => h e.symm]

end Writes

theorem get?_overlay (r s : Record α) (key : String) :
    (r.overlay s).get? key = (s.get? key).or (r.get? key) := by
  cases h : s.get? key with
  | none =>
    have absent : key ∉ s.entries.map Prod.fst := fun m => by
      have := (mem_keys_iff s key).1 m
      rw [h] at this
      cases this
    exact get?_foldl_insert_of_not_mem Prod.fst Prod.snd absent r
  | some value =>
    exact get?_foldl_insert_of_mem Prod.fst Prod.snd s.nodup (get?_eq_some_iff.1 h) r

/-- Writing over a record what is there already changes nothing. -/
theorem overlay_eq_self {r s : Record α} (h : ∀ e ∈ s.entries, r.get? e.1 = some e.2) :
    r.overlay s = r := by
  have written := foldl_insert_filter Prod.fst Prod.snd (p := fun _ => false) s.nodup
    fun e mem _ => h e mem
  rw [List.filter_eq_nil_iff.2 fun _ _ => Bool.false_ne_true] at written
  exact written.symm

theorem get?_ofList_eq_some_iff {entries : List (String × α)}
    (distinct : (entries.map Prod.fst).Nodup) {key : String} {value : α} :
    (ofList entries).get? key = some value ↔ (key, value) ∈ entries := by
  constructor
  · intro h
    by_cases mem : key ∈ entries.map Prod.fst
    · obtain ⟨e, he, rfl⟩ := List.mem_map.1 mem
      have := get?_foldl_insert_of_mem Prod.fst Prod.snd distinct he empty
      rw [ofList, this, Option.some.injEq] at h
      rwa [← h]
    · rw [ofList, get?_foldl_insert_of_not_mem Prod.fst Prod.snd mem, get?_empty] at h
      cases h
  · intro h
    exact get?_foldl_insert_of_mem Prod.fst Prod.snd distinct h empty

/-! ## Record order -/

/-- Keys in record order, each once. -/
def KeysInOrder (keys : List String) : Prop :=
  keys.Pairwise fun a b => a ≠ b ∧ keyPrecedes b a = false

instance (keys : List String) : Decidable (KeysInOrder keys) :=
  inferInstanceAs (Decidable (keys.Pairwise fun a b => a ≠ b ∧ keyPrecedes b a = false))

theorem KeysInOrder.nodup {keys : List String} (h : KeysInOrder keys) : keys.Nodup :=
  h.imp fun differs => differs.1

theorem keyPrecedes_self (key : String) : keyPrecedes key key = false := by
  unfold keyPrecedes
  cases indexKey? key <;> simp

/-- What goes before a key goes before all that do not precede that key. -/
theorem keyPrecedes_of_precedes {key old later : String} (h : keyPrecedes key old = true)
    (hlater : keyPrecedes later old = false) : keyPrecedes later key = false := by
  unfold keyPrecedes at *
  cases hkey : indexKey? key with
  | none => simp [hkey] at h
  | some a =>
    cases hl : indexKey? later with
    | none => rfl
    | some c =>
      cases hold : indexKey? old with
      | none => simp [hl, hold] at hlater
      | some b =>
        simp only [hkey, hl, hold, decide_eq_true_eq, decide_eq_false_iff_not] at h hlater ⊢
        omega

theorem keysInOrder_placeEntry {entries : List (String × α)} {key : String} (value : α)
    (fresh : key ∉ entries.map Prod.fst) (h : KeysInOrder (entries.map Prod.fst)) :
    KeysInOrder ((placeEntry key value entries).map Prod.fst) := by
  induction entries with
  | nil => exact List.pairwise_singleton _ _
  | cons e rest ih =>
    obtain ⟨first, others⟩ := List.pairwise_cons.1 h
    unfold placeEntry
    split
    · next precedes =>
      refine List.pairwise_cons.2 ⟨fun k mem => ⟨fun (same : key = k) => fresh (same ▸ mem), ?_⟩, h⟩
      rcases List.mem_cons.1 mem with rfl | mem
      · exact keyPrecedes_of_precedes precedes (keyPrecedes_self _)
      · exact keyPrecedes_of_precedes precedes (first k mem).2
    · next follows =>
      rw [List.map_cons, List.mem_cons, not_or] at fresh
      refine List.pairwise_cons.2 ⟨fun k mem => ?_, ih fresh.2 others⟩
      rcases mem_keys_placeEntry.1 mem with rfl | mem
      · exact ⟨Ne.symm fresh.1, eq_false_of_ne_true follows⟩
      · exact first k mem

theorem keysInOrder_putEntry {entries : List (String × α)}
    (h : KeysInOrder (entries.map Prod.fst)) (key : String) (value : α) :
    KeysInOrder ((putEntry entries key value).map Prod.fst) := by
  unfold putEntry
  split
  · rw [keys_overwrite]
    exact h
  · next fresh => exact keysInOrder_placeEntry value fresh h

theorem keysInOrder_ofList (entries : List (String × α)) : KeysInOrder (ofList entries).keys := by
  have kept (r : Record α) (h : KeysInOrder r.keys) :
      KeysInOrder (entries.foldl (fun r e => r.insert e.1 e.2) r).keys := by
    induction entries generalizing r with
    | nil => exact h
    | cons e rest ih => exact ih _ (keysInOrder_putEntry h e.1 e.2)
  exact kept empty List.Pairwise.nil

/-- A new key that goes before none of the others is written behind them. -/
theorem placeEntry_eq_append {entries : List (String × α)} {key : String} (value : α)
    (h : ∀ k ∈ entries.map Prod.fst, keyPrecedes key k = false) :
    placeEntry key value entries = entries ++ [(key, value)] := by
  induction entries with
  | nil => rfl
  | cons e rest ih =>
    rw [List.map_cons, List.forall_mem_cons] at h
    rw [placeEntry, h.1, if_neg Bool.false_ne_true, ih h.2]
    rfl

theorem entries_foldl_insert {entries : List (String × α)} {r : Record α}
    (h : KeysInOrder (r.keys ++ entries.map Prod.fst)) :
    (entries.foldl (fun r e => r.insert e.1 e.2) r).entries = r.entries ++ entries := by
  induction entries generalizing r with
  | nil => exact (List.append_nil _).symm
  | cons e rest ih =>
    have before := (List.pairwise_append.1 h).2.2
    have fresh : e.1 ∉ r.entries.map Prod.fst :=
      fun mem => (before e.1 mem e.1 List.mem_cons_self).1 rfl
    have placed : (r.insert e.1 e.2).entries = r.entries ++ [e] := by
      show putEntry r.entries e.1 e.2 = _
      rw [putEntry, if_neg fresh]
      exact placeEntry_eq_append e.2 fun k mem => (before k mem e.1 List.mem_cons_self).2
    rw [List.foldl_cons, ih, placed, List.append_assoc, List.singleton_append]
    rw [keys, placed, List.map_append, List.append_assoc]
    exact h

/-- Entries that stand in record order are written as they stand. -/
theorem entries_ofList {entries : List (String × α)} (h : KeysInOrder (entries.map Prod.fst)) :
    (ofList entries).entries = entries := entries_foldl_insert h

/-- A record that has been written is written again by its own entries. -/
theorem ofList_entries_ofList (entries : List (String × α)) :
    ofList (ofList entries).entries = ofList entries :=
  eq_of_entries_eq (entries_ofList (keysInOrder_ofList entries))

end ClusterUpgrade.Record
