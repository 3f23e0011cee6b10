import ClusterUpgrade.Proofs.Record
import Mathlib.Data.List.Induction
import Mathlib.Data.List.Nodup
import Mathlib.Data.Nat.Digits.Defs

/-!
# Writing a record again

A record that was written over another one keeps every key in its place when it is written over that
one again.

1. `eq_of_indexKey?`: a key that is written like an array index is told by its value, so of two keys
   one of which is of this form one goes before the other (`keyPrecedes_or`).
2. `insert_comm`: writes may change places, unless both put a new key behind all others.
3. `overlay_foldl_insert`: the main statement, for any run of writes.
-/

namespace ClusterUpgrade.Record

variable {α : Type}

/-! ## Index keys -/

/-- The characters of the decimal form of a number. -/
def decimalForm (n : Nat) : List Char :=
  (if n = 0 then [0] else (Nat.digits 10 n).reverse).map fun d => Char.ofNat (d + 48)

/-- The value of a digit. -/
def digitValue (c : Char) : Nat := c.toNat - '0'.toNat

theorem isDigit_bounds {c : Char} (h : c.isDigit = true) : 48 ≤ c.toNat ∧ c.toNat ≤ 57 := by
  simp only [Char.isDigit, Bool.and_eq_true, decide_eq_true_eq] at h
  exact ⟨UInt32.le_iff_toNat_le.1 h.1, UInt32.le_iff_toNat_le.1 h.2⟩

theorem map_digitValue {digits : List Char} (h : ∀ c ∈ digits, c.isDigit = true) :
    (digits.map digitValue).map (fun d => Char.ofNat (d + 48)) = digits := by
  rw [List.map_map]
  refine (List.map_congr_left fun c hc => ?_).trans (List.map_id digits)
  have bounds := isDigit_bounds (h c hc)
  have value : digitValue c + 48 = c.toNat := Nat.sub_add_cancel bounds.1
  rw [Function.comp_apply, value, Char.ofNat_toNat]
  rfl

theorem foldl_digits_eq_ofDigits (digits : List Char) :
    digits.foldl (fun n c => n * 10 + (c.toNat - '0'.toNat)) 0 =
      Nat.ofDigits 10 (digits.map digitValue).reverse := by
  induction digits using List.reverseRecOn with
  | nil => rfl
  | append_singleton digits c ih =>
    rw [List.foldl_append, List.foldl_cons, List.foldl_nil, ih, List.map_append,
      List.reverse_append]
    show _ = Nat.ofDigits 10 (digitValue c :: (digits.map digitValue).reverse)
    rw [Nat.ofDigits_cons, Nat.mul_comm, Nat.add_comm]
    rfl

/-- Digits without a leading zero are the decimal form of their value. -/
theorem digits_foldl {first : Char} {rest : List Char}
    (digits : ∀ c ∈ first :: rest, c.isDigit = true) (unpadded : first ≠ '0') :
    Nat.digits 10 ((first :: rest).foldl (fun n c => n * 10 + (c.toNat - '0'.toNat)) 0) =
      ((first :: rest).map digitValue).reverse := by
  rw [foldl_digits_eq_ofDigits]
  refine Nat.digits_ofDigits 10 (by omega) _ ?_ ?_
  · intro d hd
    obtain ⟨c, hc, rfl⟩ := List.mem_map.1 (List.mem_reverse.1 hd)
    have bounds := isDigit_bounds (digits c hc)
    show c.toNat - 48 < 10
    omega
  · intro filled
    have bounds := isDigit_bounds (digits first List.mem_cons_self)
    have differs : first.toNat ≠ 48 := fun e => unpadded (Char.toNat_inj.1 e)
    rw [List.getLast_reverse]
    show first.toNat - 48 ≠ 0
    omega

/-- A key that is written like an array index is the decimal form of its value. -/
theorem toList_of_indexKey? {key : String} {n : Nat} (h : indexKey? key = some n) :
    key.toList = decimalForm n := by
  unfold indexKey? at h
  split at h
  · cases h
  · next hkey =>
    cases h
    exact hkey
  · cases h
  · next filled _ unpadded =>
    simp only at h
    split at h
    · next all =>
      have digits : ∀ c ∈ key.toList, c.isDigit = true := List.all_eq_true.1 all
      split at h
      · cases h
        cases hkey : key.toList with
        | nil => exact (filled hkey).elim
        | cons first rest =>
          rw [hkey] at digits unpadded
          have form := digits_foldl digits fun e => unpadded rest (by rw [e])
          have positive : (first :: rest).foldl
              (fun n c => n * 10 + (c.toNat - '0'.toNat)) 0 ≠ 0 := by
            intro e
            rw [e, Nat.digits_zero] at form
            exact List.cons_ne_nil _ _ (List.reverse_eq_nil_iff.1 form.symm)
          rw [decimalForm, if_neg positive, form, List.reverse_reverse, map_digitValue digits]
      · cases h
    · cases h

/-- Different keys have different values. -/
theorem eq_of_indexKey? {a b : String} {n : Nat} (ha : indexKey? a = some n)
    (hb : indexKey? b = some n) : a = b :=
  String.toList_inj.1 ((toList_of_indexKey? ha).trans (toList_of_indexKey? hb).symm)

/-- Of two keys one goes before the other, unless neither is written like an array index. -/
theorem keyPrecedes_or {a b : String} (differ : a ≠ b) (index : (indexKey? a).isSome) :
    keyPrecedes a b = !keyPrecedes b a := by
  unfold keyPrecedes
  obtain ⟨n, hn⟩ := Option.isSome_iff_exists.1 index
  cases hm : indexKey? b with
  | none => simp [hn]
  | some m =>
    have values : n ≠ m := fun e => differ (eq_of_indexKey? hn (e ▸ hm))
    simp only [hn]
    rw [Bool.eq_iff_iff, Bool.not_eq_true', decide_eq_true_eq, decide_eq_false_iff_not]
    omega

/-! ## Writes in another order -/

theorem placeEntry_comm {entries : List (String × α)} {a b : String} (v w : α) (differ : a ≠ b)
    (index : (indexKey? a).isSome) :
    placeEntry a v (placeEntry b w entries) = placeEntry b w (placeEntry a v entries) := by
  have total := keyPrecedes_or differ index
  induction entries with
  | nil =>
    simp only [placeEntry, total]
    cases keyPrecedes b a <;> rfl
  | cons e rest ih =>
    simp only [placeEntry]
    cases ha : keyPrecedes a e.1 <;> cases hb : keyPrecedes b e.1
    · simp [placeEntry, ha, hb, ih]
    · simp only [placeEntry, ha, hb, keyPrecedes_of_precedes hb ha, if_true,
        if_neg Bool.false_ne_true]
    · simp only [placeEntry, ha, hb, keyPrecedes_of_precedes ha hb, if_true,
        if_neg Bool.false_ne_true]
    · simp only [placeEntry, ha, hb, total, if_true]
      cases keyPrecedes b a <;> rfl

theorem placeEntry_overwrite (entries : List (String × α)) {a b : String} (v w : α)
    (differ : a ≠ b) :
    placeEntry b w (entries.map fun e => if e.1 = a then (a, v) else e) =
      (placeEntry b w entries).map fun e => if e.1 = a then (a, v) else e := by
  induction entries with
  | nil => simp [placeEntry, Ne.symm differ]
  | cons e rest ih =>
    have key : (if e.1 = a then (a, v) else e).1 = e.1 := by split <;> simp_all
    rw [List.map_cons, placeEntry, placeEntry, key]
    split
    · rw [List.map_cons, List.map_cons, if_neg (Ne.symm differ)]
    · rw [List.map_cons, ih]

theorem overwrite_of_not_mem {entries : List (String × α)} {key : String} (value : α)
    (absent : key ∉ entries.map Prod.fst) :
    (entries.map fun e => if e.1 = key then (key, value) else e) = entries := by
  refine (List.map_congr_left fun e he => ?_).trans (List.map_id entries)
  exact if_neg fun (same : e.1 = key) => absent (same ▸ List.mem_map_of_mem he)

theorem overwrite_placeEntry {entries : List (String × α)} {key : String} (v w : α)
    (fresh : key ∉ entries.map Prod.fst) :
    ((placeEntry key v entries).map fun e => if e.1 = key then (key, w) else e) =
      placeEntry key w entries := by
  induction entries with
  | nil => simp [placeEntry]
  | cons e rest ih =>
    have differs : e.1 ≠ key := fun same => fresh (List.mem_cons.2 (Or.inl same.symm))
    rw [placeEntry, placeEntry]
    split
    · rw [List.map_cons, if_pos rfl, overwrite_of_not_mem w fresh]
    · rw [List.map_cons, if_neg differs, ih fun mem => fresh (List.mem_cons_of_mem _ mem)]

theorem insert_insert (r : Record α) (key : String) (v w : α) :
    (r.insert key v).insert key w = r.insert key w := by
  apply eq_of_entries_eq
  show putEntry (putEntry r.entries key v) key w = putEntry r.entries key w
  by_cases mem : key ∈ r.entries.map Prod.fst
  · rw [putEntry, putEntry, putEntry, if_pos mem, if_pos mem, keys_overwrite, if_pos mem,
      List.map_map]
    refine List.map_congr_left fun e _ => ?_
    by_cases same : e.1 = key <;> simp [same]
  · have placed : key ∈ (placeEntry key v r.entries).map Prod.fst :=
      mem_keys_placeEntry.2 (Or.inl rfl)
    rw [putEntry, putEntry, putEntry, if_neg mem, if_neg mem, if_pos placed,
      overwrite_placeEntry v w mem]

/-- Writes under different keys may change places, unless both keys are new and take the place
behind all others. -/
theorem insert_comm (r : Record α) {a b : String} (v w : α) (differ : a ≠ b)
    (fixed : r.has a ∨ (indexKey? a).isSome) :
    (r.insert a v).insert b w = (r.insert b w).insert a v := by
  apply eq_of_entries_eq
  show putEntry (putEntry r.entries a v) b w = putEntry (putEntry r.entries b w) a v
  have place_mem {k key : String} (value : α) (ne : k ≠ key) :
      k ∈ (placeEntry key value r.entries).map Prod.fst ↔ k ∈ r.entries.map Prod.fst :=
    mem_keys_placeEntry.trans (or_iff_right ne)
  by_cases ha : a ∈ r.entries.map Prod.fst <;> by_cases hb : b ∈ r.entries.map Prod.fst
  · simp only [putEntry, keys_overwrite, if_pos ha, if_pos hb]
    rw [List.map_map, List.map_map]
    refine List.map_congr_left fun e _ => ?_
    by_cases same : e.1 = a
    · simp [same, differ]
    · by_cases same' : e.1 = b <;> simp [same, same', Ne.symm differ]
  · simp only [putEntry, keys_overwrite, if_pos ha, if_neg hb, place_mem w differ]
    exact placeEntry_overwrite _ v w differ
  · simp only [putEntry, keys_overwrite, if_neg ha, if_pos hb, place_mem v (Ne.symm differ)]
    exact (placeEntry_overwrite _ w v (Ne.symm differ)).symm
  · have index : (indexKey? a).isSome = true :=
      fixed.resolve_left fun has => ha ((mem_keys_iff r a).2 has)
    simp only [putEntry, if_neg ha, if_neg hb, place_mem v (Ne.symm differ), place_mem w differ]
    exact (placeEntry_comm v w differ index).symm

/-- A write may be put off, past writes under other keys. -/
theorem foldl_insert_comm {items : List (String × α)} {key : String} (value : α)
    (absent : key ∉ items.map Prod.fst) {r : Record α}
    (fixed : r.has key ∨ (indexKey? key).isSome) :
    items.foldl (fun r e => r.insert e.1 e.2) (r.insert key value) =
      (items.foldl (fun r e => r.insert e.1 e.2) r).insert key value := by
  induction items generalizing r with
  | nil => rfl
  | cons e rest ih =>
    rw [List.map_cons, List.mem_cons, not_or] at absent
    have fixed' : (r.insert e.1 e.2).has key ∨ (indexKey? key).isSome := by
      refine fixed.imp_left fun present => ?_
      rwa [Record.has, get?_insert, if_neg absent.1]
    rw [List.foldl_cons, List.foldl_cons, insert_comm r value e.2 absent.1 fixed,
      ih absent.2 fixed']

theorem overlay_self (r : Record α) : r.overlay r = r :=
  overlay_eq_self fun _ mem => get?_eq_some_iff.2 mem

/-- Where an entry with a new key is put: in front of some others only if its key is written like an
array index. -/
theorem exists_placeEntry (key : String) (value : α) (entries : List (String × α)) :
    ∃ before after, entries = before ++ after ∧
      placeEntry key value entries = before ++ (key, value) :: after ∧
      (after = [] ∨ (indexKey? key).isSome) := by
  induction entries with
  | nil => exact ⟨[], [], rfl, rfl, Or.inl rfl⟩
  | cons e rest ih =>
    unfold placeEntry
    split
    · next precedes =>
      refine ⟨[], e :: rest, rfl, rfl, Or.inr ?_⟩
      unfold keyPrecedes at precedes
      cases hkey : indexKey? key with
      | none => simp [hkey] at precedes
      | some n => rfl
    · obtain ⟨before, after, hentries, hplaced, hlast⟩ := ih
      exact ⟨e :: before, after, by rw [hentries]; rfl, by rw [hplaced]; rfl, hlast⟩

/-- A record that comes of writes over another one does not change when it is written over that one
again: all keys find their places. -/
theorem overlay_insert {base r : Record α} (h : base.overlay r = r) (key : String) (value : α) :
    base.overlay (r.insert key value) = r.insert key value := by
  by_cases mem : key ∈ r.entries.map Prod.fst
  · obtain ⟨e, he, rfl⟩ := List.mem_map.1 mem
    obtain ⟨before, after, hentries⟩ := List.append_of_mem he
    have distinct := r.nodup
    rw [hentries, List.map_append, List.map_cons, List.nodup_middle, List.nodup_cons,
      List.mem_append, not_or] at distinct
    have written : (r.insert e.1 value).entries = before ++ (e.1, value) :: after := by
      show putEntry r.entries e.1 value = _
      rw [putEntry, if_pos mem, hentries, List.map_append, List.map_cons, if_pos rfl,
        overwrite_of_not_mem value distinct.1.1, overwrite_of_not_mem value distinct.1.2]
    have present : ((before.foldl (fun r e => r.insert e.1 e.2) base).insert e.1 e.2).has e.1 := by
      rw [has, get?_insert, if_pos rfl]
      rfl
    rw [overlay, hentries, List.foldl_append, List.foldl_cons] at h
    rw [overlay, written, List.foldl_append, List.foldl_cons, ← insert_insert _ e.1 e.2 value,
      foldl_insert_comm value distinct.1.2 (Or.inl present), h]
  · obtain ⟨before, after, hentries, hplaced, hlast⟩ := exists_placeEntry key value r.entries
    have written : (r.insert key value).entries = before ++ (key, value) :: after := by
      show putEntry r.entries key value = _
      rw [putEntry, if_neg mem, hplaced]
    rw [overlay, hentries, List.foldl_append] at h
    rw [overlay, written, List.foldl_append, List.foldl_cons]
    rcases hlast with rfl | index
    · rw [List.foldl_nil] at h ⊢
      rw [h]
    · have absent : key ∉ after.map Prod.fst := by
        intro later
        rw [hentries, List.map_append] at mem
        exact mem (List.mem_append_right _ later)
      rw [foldl_insert_comm value absent (Or.inr index), h]

/-- A run of writes over a record gives a record that does not change when it is written over that
one. -/
theorem overlay_foldl_insert (base : Record α) (items : List (String × α)) :
    base.overlay (items.foldl (fun r e => r.insert e.1 e.2) base) =
      items.foldl (fun r e => r.insert e.1 e.2) base := by
  have kept (r : Record α) (h : base.overlay r = r) :
      base.overlay (items.foldl (fun r e => r.insert e.1 e.2) r) =
        items.foldl (fun r e => r.insert e.1 e.2) r := by
    induction items generalizing r with
    | nil => exact h
    | cons e rest ih => exact ih _ (overlay_insert h e.1 e.2)
  exact kept base (overlay_self base)

end ClusterUpgrade.Record
