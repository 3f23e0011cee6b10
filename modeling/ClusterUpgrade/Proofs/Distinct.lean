import ClusterUpgrade.Distinct
import Mathlib.Tactic.SplitIfs

/-!
# First occurrences

`distinct` keeps items in the order in which they are first found
(`pairwise_distinct_filterMap`), so it gives the items of a list by their first occurrence, each
once (`firstOccurrences_distinct`).
-/

namespace ClusterUpgrade

theorem filterMap_getElem?_range {α : Type} (l : List α) (n : Nat) :
    (List.range n).filterMap (fun i => l[i]?) = l.take n := by
  induction n with
  | zero => rfl
  | succ n ih =>
    rw [List.range_succ, List.filterMap_append, ih, List.take_add_one]
    cases h : l[n]? <;> simp [h]

variable {α : Type} [DecidableEq α]

theorem distinct_append_singleton (l : List α) (a : α) :
    distinct (l ++ [a]) = addDistinct (distinct l) a := by
  rw [distinct, List.foldl_append]
  rfl

/-- Distinct values are in the order in which they were first found. -/
theorem pairwise_distinct_filterMap (f : Nat → Option α) (n : Nat) :
    (distinct ((List.range n).filterMap f)).Pairwise fun a b =>
      ∃ i < n, f i = some a ∧ ∀ j < n, f j = some b → i < j := by
  induction n with
  | zero => exact .nil
  | succ n ih =>
    have grown : (distinct ((List.range n).filterMap f)).Pairwise fun a b =>
        ∃ i < n + 1, f i = some a ∧ ∀ j < n + 1, f j = some b → i < j := by
      refine ih.imp ?_
      rintro a b ⟨i, hi, found, first⟩
      refine ⟨i, by omega, found, fun j hj hb => ?_⟩
      rcases Nat.lt_succ_iff_lt_or_eq.1 hj with earlier | rfl
      · exact first j earlier hb
      · exact hi
    rw [List.range_succ, List.filterMap_append]
    cases new : f n with
    | none => simpa [new] using grown
    | some c =>
      rw [List.filterMap_cons_some new, List.filterMap_nil, distinct_append_singleton, addDistinct]
      split_ifs with known
      · exact grown
      -- A new value comes last, and nothing before has it.
      refine List.pairwise_append.2 ⟨grown, List.pairwise_singleton _ _, fun a mem b last => ?_⟩
      obtain rfl := List.mem_singleton.1 last
      obtain ⟨i, hi, found⟩ := List.mem_filterMap.1 (mem_distinct.1 mem)
      refine ⟨i, by have := List.mem_range.1 hi; omega, found, fun j hj hb => ?_⟩
      rcases Nat.lt_succ_iff_lt_or_eq.1 hj with earlier | rfl
      · exact absurd (mem_distinct.2 (List.mem_filterMap.2 ⟨j, List.mem_range.2 earlier, hb⟩)) known
      · exact List.mem_range.1 hi

/-- A list has the items of another by their first occurrence, each once. -/
structure FirstOccurrences (items firsts : List α) : Prop where
  nodup : firsts.Nodup
  mem_iff : ∀ a, a ∈ firsts ↔ a ∈ items
  ordered : firsts.Pairwise fun a b =>
    ∃ i : Nat, items[i]? = some a ∧ ∀ j, items[j]? = some b → i < j

theorem firstOccurrences_distinct (items : List α) : FirstOccurrences items (distinct items) where
  nodup := nodup_distinct items
  mem_iff := fun _ => mem_distinct
  ordered := by
    have ordered := pairwise_distinct_filterMap (fun i => items[i]?) items.length
    rw [filterMap_getElem?_range, List.take_length] at ordered
    refine ordered.imp ?_
    rintro a b ⟨i, -, found, first⟩
    exact ⟨i, found, fun j hj => first j (List.getElem?_eq_some_iff.1 hj).1 hj⟩

end ClusterUpgrade
