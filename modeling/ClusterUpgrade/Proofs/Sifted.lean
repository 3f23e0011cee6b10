import Mathlib.Data.Nat.Count

/-!
# Positions in what is left of a list

When some of the items of a list are left out, those that are left move up. An item that was at
position `n` is then at position `rank p n`, the number of items before it that are left, where `p`
says which are (`Sifted`). It keeps its position exactly when nothing before it is left out
(`rank_eq_iff`).
-/

namespace ClusterUpgrade

open Classical in
/-- How many positions before a position have a property. -/
noncomputable def rank (p : Nat → Prop) (n : Nat) : Nat := Nat.count p n

section Rank

variable {p : Nat → Prop} {n : Nat}

theorem rank_zero : rank p 0 = 0 := by
  classical exact Nat.count_zero p

theorem rank_succ_of_pos (first : p 0) : rank p (n + 1) = rank (fun k => p (k + 1)) n + 1 := by
  classical
  rw [rank, rank, Nat.count_succ', if_pos first]

theorem rank_succ_of_neg (first : ¬ p 0) : rank p (n + 1) = rank (fun k => p (k + 1)) n := by
  classical
  rw [rank, rank, Nat.count_succ', if_neg first, Nat.add_zero]

theorem rank_le (p : Nat → Prop) (n : Nat) : rank p n ≤ n := by
  classical exact Nat.count_le p

theorem rank_eq_iff : rank p n = n ↔ ∀ k < n, p k := by
  classical exact Nat.count_iff_forall

end Rank

/-- A list has, in order, something for each position with a property: `p` says which positions
have it, and `R` what may be there for them. -/
structure Sifted {β : Type} (p : Nat → Prop) (R : Nat → β → Prop) (bs : List β) : Prop where
  /-- Everything in the list is there for a position. -/
  origin : ∀ {i b}, bs[i]? = some b → ∃ n, p n ∧ R n b ∧ rank p n = i
  /-- There is something for each of the positions. -/
  kept : ∀ {n}, p n → ∃ b, R n b ∧ bs[rank p n]? = some b

namespace Sifted

variable {α β : Type} {p q : Nat → Prop} {R S : Nat → β → Prop} {bs : List β} {b : β}

theorem congr (h : Sifted p R bs) (same : ∀ n, p n ↔ q n) (imp : ∀ n b, R n b → S n b) :
    Sifted q S bs := by
  obtain rfl : p = q := funext fun n => propext (same n)
  constructor
  · intro i b there
    obtain ⟨n, hp, hR, hn⟩ := h.origin there
    exact ⟨n, hp, imp n b hR, hn⟩
  · intro n hp
    obtain ⟨b, hR, there⟩ := h.kept hp
    exact ⟨b, imp n b hR, there⟩

theorem nil (none : ∀ n, ¬ p n) : Sifted p R [] where
  origin there := nomatch there
  kept hp := absurd hp (none _)

/-- The first position does not count. -/
theorem skip (first : ¬ p 0) (rest : Sifted (fun n => p (n + 1)) (fun n => R (n + 1)) bs) :
    Sifted p R bs := by
  constructor
  · intro i b there
    obtain ⟨n, hp, hR, hn⟩ := rest.origin there
    exact ⟨n + 1, hp, hR, (rank_succ_of_neg first).trans hn⟩
  · intro n hp
    cases n with
    | zero => exact absurd hp first
    | succ n =>
      rw [rank_succ_of_neg first]
      exact rest.kept hp

/-- The first position counts, and what is there for it comes first. -/
theorem keep (first : p 0) (here : R 0 b)
    (rest : Sifted (fun n => p (n + 1)) (fun n => R (n + 1)) bs) : Sifted p R (b :: bs) := by
  constructor
  · intro i b' there
    cases i with
    | zero =>
      obtain rfl := Option.some.inj there
      exact ⟨0, first, here, rank_zero⟩
    | succ i =>
      obtain ⟨n, hp, hR, hn⟩ := rest.origin there
      exact ⟨n + 1, hp, hR, by rw [rank_succ_of_pos first, hn]⟩
  · intro n hp
    cases n with
    | zero => exact ⟨b, here, by rw [rank_zero, List.getElem?_cons_zero]⟩
    | succ n =>
      obtain ⟨b', hR, there⟩ := rest.kept hp
      exact ⟨b', hR, by rw [rank_succ_of_pos first, List.getElem?_cons_succ, there]⟩

/-- Where as many are left as there were positions, all of them count. -/
theorem all (h : Sifted p R bs) (bound : ∀ n, p n → n < bs.length) {n : Nat}
    (there : n < bs.length) : p n := by
  -- The last of the list is there for a position with that many before it, so for the last one.
  obtain ⟨b, last⟩ : ∃ b, bs[bs.length - 1]? = some b := by
    rw [List.getElem?_eq_getElem (by omega)]
    exact ⟨_, rfl⟩
  obtain ⟨k, hk, -, number⟩ := h.origin last
  have small := bound k hk
  have few := rank_le p k
  obtain rfl : k = bs.length - 1 := by omega
  rcases Nat.lt_or_ge n (bs.length - 1) with before | after
  · exact rank_eq_iff.1 number n before
  · obtain rfl : n = bs.length - 1 := by omega
    exact hk

/-- The items of a list that come to something. -/
theorem filterMap (f : α → Option β) (as : List α) :
    Sifted (fun n => ∃ a, as[n]? = some a ∧ (f a).isSome)
      (fun n b => ∃ a, as[n]? = some a ∧ f a = some b) (as.filterMap f) := by
  induction as with
  | nil => exact .nil (by simp)
  | cons a rest ih =>
    cases found : f a with
    | none =>
      rw [List.filterMap_cons_none found]
      exact skip (by simp [found]) ih
    | some b =>
      rw [List.filterMap_cons_some found]
      exact keep ⟨a, rfl, by rw [found]; rfl⟩ ⟨a, rfl, found⟩ ih

end Sifted

end ClusterUpgrade
