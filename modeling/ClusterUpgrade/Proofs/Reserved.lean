import ClusterUpgrade.Proofs.Record
import ClusterUpgrade.Reserved

/-!
# Writes beside the reserved name

A record that is written entry by entry has nothing under the reserved name
(`get?_record_recordName`), and entries without that name are written as they are
(`record_eq_ofList`). Writing over a record that has the reserved name already, or entries without
it, is plain writing (`get?_overlay`). It comes to the same entry by entry (`foldl_write`).
-/

namespace ClusterUpgrade.Reserved

variable {α : Type}

theorem get?_record_recordName (entries : List (String × α)) :
    (record entries).get? recordName = none := by
  apply Record.get?_foldl_insert_of_not_mem Prod.fst Prod.snd
  intro mem
  obtain ⟨e, he, hkey⟩ := List.mem_map.1 mem
  have writable := (List.mem_filter.1 he).2
  rw [hkey] at writable
  simp [isWritable] at writable

theorem get?_record (entries : List (String × α)) {key : String}
    (writable : isWritable key = true) :
    (record entries).get? key = (Record.ofList entries).get? key := by
  have alike (r r' : Record α) (same : r.get? key = r'.get? key) :
      ((entries.filter fun e => isWritable e.1).foldl (fun r e => r.insert e.1 e.2) r).get? key =
        (entries.foldl (fun r e => r.insert e.1 e.2) r').get? key := by
    induction entries generalizing r r' with
    | nil => exact same
    | cons e rest ih =>
      rw [List.filter_cons, List.foldl_cons]
      split
      · refine ih _ _ ?_
        rw [Record.get?_insert, Record.get?_insert, same]
      · next left =>
        refine ih _ _ ?_
        have other : key ≠ e.1 := fun h => left (h ▸ writable)
        rw [Record.get?_insert, if_neg other, same]
  exact alike _ _ rfl

theorem record_eq_ofList {entries : List (String × α)}
    (writable : recordName ∉ entries.map Prod.fst) : record entries = .ofList entries := by
  rw [record, List.filter_eq_self.2]
  intro e mem
  exact decide_eq_true fun same => writable (same ▸ List.mem_map_of_mem mem)

theorem record_entries (entries : List (String × α)) :
    record (record entries).entries = record entries := by
  rw [record_eq_ofList, record, Record.ofList_entries_ofList]
  intro mem
  have there := (Record.mem_keys_iff _ _).1 mem
  rw [get?_record_recordName] at there
  cases there

theorem get?_overlay (r s : Record α) (key : String) : (overlay r s).get? key =
    if takes r key then (s.get? key).or (r.get? key) else none := by
  rw [overlay, Record.get?_overlay, Record.get?_filterKeys]
  by_cases h : takes r key = true
  · rw [if_pos h, if_pos h]
  · rw [if_neg h, if_neg h, get?_eq_none_of_not_takes (eq_false_of_ne_true h)]
    rfl

/-- Writes do not change what can be written. -/
theorem takes_write (r : Record α) (key : String) (value : α) :
    takes (write r key value) = takes r := by
  funext k
  rw [takes, takes, Record.has, Record.has, get?_write]
  split
  · next h =>
    have taken : takes r k = true := h.1 ▸ h.2
    rw [takes, Record.has] at taken
    rw [Option.isSome_some, Bool.or_true, taken]
  · rfl

/-- Writing entries one by one is writing them at once. -/
theorem foldl_write (entries : List (String × α)) (r : Record α) :
    entries.foldl (fun r e => write r e.1 e.2) r =
      (entries.filter fun e => takes r e.1).foldl (fun r e => r.insert e.1 e.2) r := by
  induction entries generalizing r with
  | nil => rfl
  | cons e rest ih =>
    rw [List.foldl_cons, ih, takes_write, List.filter_cons]
    split
    · next taken => rw [write_of_takes taken, List.foldl_cons]
    · next left => rw [write, if_neg left]

end ClusterUpgrade.Reserved
