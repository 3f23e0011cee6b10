import ClusterUpgrade.Store.Write
import Mathlib.Data.List.Nodup

/-!
# Items told apart by their names

Services, components and hosts are looked up by their names, and changed by them. Where names tell
the items of a list apart, both come to the item that is meant (`find?_name_eq`,
`updateFirst_append`). Whatever tells it apart, the first item that has it divides a list in one way
only (`eq_of_append_cons_eq`).
-/

namespace ClusterUpgrade

variable {α : Type} {name : α → String} {items before later : List α} {a : α}

theorem find?_name_eq (distinct : (items.map name).Nodup) (mem : a ∈ items) :
    items.find? (fun b => name b = name a) = some a := by
  have found : (items.find? fun b => name b = name a).isSome := by
    rw [List.find?_isSome]
    exact ⟨a, mem, decide_eq_true rfl⟩
  obtain ⟨b, hb⟩ := Option.isSome_iff_exists.1 found
  have named : name b = name a := by simpa using List.find?_some hb
  rw [hb, List.inj_on_of_nodup_map distinct (List.mem_of_find?_eq_some hb) mem named]

/-- No item before or behind another one has its name. -/
theorem names_ne_of_nodup (distinct : ((before ++ a :: later).map name).Nodup) :
    (∀ b ∈ before, name b ≠ name a) ∧ ∀ b ∈ later, name b ≠ name a := by
  rw [List.map_append, List.map_cons, List.nodup_append, List.nodup_cons] at distinct
  constructor
  · exact fun b mem => distinct.2.2 _ (List.mem_map_of_mem mem) _ List.mem_cons_self
  · exact fun b mem same => distinct.2.1.1 (List.mem_map.2 ⟨b, mem, same⟩)

theorem eq_of_append_cons_eq {P : α → Prop} {before' later' : List α} {a' : α}
    (earlier : ∀ b ∈ before, ¬ P b) (earlier' : ∀ b ∈ before', ¬ P b) (here : P a) (here' : P a')
    (same : before ++ a :: later = before' ++ a' :: later') :
    before = before' ∧ a = a' ∧ later = later' := by
  rcases List.append_eq_append_iff.1 same with ⟨more, rfl, rest⟩ | ⟨more, rfl, rest⟩
  · cases more with
    | nil => simpa using rest
    | cons b more =>
      obtain ⟨rfl, -⟩ := List.cons.inj rest
      exact absurd here (earlier' a (by simp))
  · cases more with
    | nil => simpa [eq_comm] using rest
    | cons b more =>
      obtain ⟨rfl, -⟩ := List.cons.inj rest
      exact absurd here' (earlier a' (by simp))

/-- The first item with a name is changed where it stands. -/
theorem updateFirst_append {ε : Type} {key : String} (name : α → String) (missing : ε)
    (earlier : ∀ b ∈ before, name b ≠ key) (here : name a = key) (later : List α)
    (f : α → Except ε α) :
    updateFirst (fun b => name b = key) missing f (before ++ a :: later) =
      (f a).map fun a' => before ++ a' :: later := by
  induction before with
  | nil => rw [List.nil_append, updateFirst, if_pos (decide_eq_true here)]; rfl
  | cons b rest ih =>
    rw [List.forall_mem_cons] at earlier
    have passed : ¬ decide (name b = key) = true := by simpa using earlier.1
    rw [List.cons_append, updateFirst, if_neg passed, ih earlier.2]
    cases f a <;> rfl

end ClusterUpgrade
