/-!
# Distinct items

`distinct` keeps the first occurrence of every item, in order. Services of a run, tokens of a text
and reported hosts are all collected this way.
-/

namespace ClusterUpgrade

variable {α : Type} [DecidableEq α]

/-- Adds an item at the end unless the list has it already. -/
def addDistinct (xs : List α) (x : α) : List α := if x ∈ xs then xs else xs ++ [x]

/-- The first occurrence of every item, in order. -/
def distinct (xs : List α) : List α := xs.foldl addDistinct []

@[simp] theorem mem_addDistinct {xs : List α} {x y : α} :
    y ∈ addDistinct xs x ↔ y ∈ xs ∨ y = x := by
  unfold addDistinct; split <;> grind

theorem nodup_addDistinct {xs : List α} (h : xs.Nodup) (x : α) : (addDistinct xs x).Nodup := by
  unfold addDistinct; split
  · exact h
  · exact List.nodup_append.2 ⟨h, by simp, by grind⟩

theorem mem_foldl_addDistinct {xs acc : List α} {y : α} :
    y ∈ xs.foldl addDistinct acc ↔ y ∈ acc ∨ y ∈ xs := by
  induction xs generalizing acc with
  | nil => simp
  | cons x xs ih => simp [ih, or_assoc]

theorem nodup_foldl_addDistinct {xs acc : List α} (h : acc.Nodup) :
    (xs.foldl addDistinct acc).Nodup := by
  induction xs generalizing acc with
  | nil => exact h
  | cons x xs ih => exact ih (nodup_addDistinct h x)

@[simp] theorem mem_distinct {xs : List α} {y : α} : y ∈ distinct xs ↔ y ∈ xs := by
  simp [distinct, mem_foldl_addDistinct]

theorem nodup_distinct (xs : List α) : (distinct xs).Nodup :=
  nodup_foldl_addDistinct List.nodup_nil

end ClusterUpgrade
