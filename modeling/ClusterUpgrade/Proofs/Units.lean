import ClusterUpgrade.Text.Units

/-!
# Units and characters

A text is the characters of its units (`ofCodes_flatMap_unitsOf`), and so is every cut of it: the
units before or after the cut, read as characters (`takeUnits_eq_ofCodes`, `dropUnits_eq_ofCodes`).
Texts with the same units on one side of a cut are cut into the same characters there.
-/

namespace ClusterUpgrade.Text

theorem length_unitsOf (c : Char) : (unitsOf c).length = width c := by
  unfold unitsOf width
  split <;> rfl

theorem length_flatMap_unitsOf (s : List Char) : (s.flatMap unitsOf).length = units s := by
  induction s with
  | nil => rfl
  | cons c s ih => rw [List.flatMap_cons, List.length_append, length_unitsOf, ih, units_cons]

theorem pairSurrogates?_of_not_high {high low : Nat} (h : ¬ (0xd800 ≤ high ∧ high < 0xdc00)) :
    pairSurrogates? high low = none := by
  rw [pairSurrogates?, if_neg]
  rintro ⟨h₁, h₂, -⟩
  exact h ⟨h₁, h₂⟩

/-- A number that is no high surrogate is a character of its own. -/
theorem ofCodes_cons {code : Nat} (h : ¬ (0xd800 ≤ code ∧ code < 0xdc00)) (codes : List Nat) :
    ofCodes (code :: codes) = ofCode code :: ofCodes codes := by
  cases codes with
  | nil => rfl
  | cons low rest =>
    rw [ofCodes, pairSurrogates?_of_not_high h]

theorem toNat_valid (c : Char) : c.toNat < 0xd800 ∨ 0xdfff < c.toNat ∧ c.toNat < 0x110000 := c.valid

theorem ofCodes_unitsOf_append (c : Char) (codes : List Nat) :
    ofCodes (unitsOf c ++ codes) = c :: ofCodes codes := by
  have valid := toNat_valid c
  unfold unitsOf
  split
  · next narrow =>
    have single : ofCode c.toNat = c := by
      rw [ofCode, if_neg (by omega), Char.ofNat_toNat]
    rw [List.singleton_append, ofCodes_cons (by omega), single]
  · next wide =>
    have pair : pairSurrogates? (0xd800 + (c.toNat - 0x10000) / 0x400)
        (0xdc00 + (c.toNat - 0x10000) % 0x400) = some c := by
      rw [pairSurrogates?, if_pos (by omega)]
      have whole : 0x10000 + (0xd800 + (c.toNat - 0x10000) / 0x400 - 0xd800) * 0x400 +
          (0xdc00 + (c.toNat - 0x10000) % 0x400 - 0xdc00) = c.toNat := by omega
      rw [whole, Char.ofNat_toNat]
    rw [List.cons_append, List.singleton_append, ofCodes, pair]

theorem ofCodes_flatMap_unitsOf (s : List Char) : ofCodes (s.flatMap unitsOf) = s := by
  induction s with
  | nil => rfl
  | cons c s ih => rw [List.flatMap_cons, ofCodes_unitsOf_append, ih]

theorem take_flatMap_unitsOf_cons (n : Nat) (c : Char) (s : List Char) :
    ((c :: s).flatMap unitsOf).take n =
      (unitsOf c).take n ++ (s.flatMap unitsOf).take (n - width c) := by
  rw [List.flatMap_cons, List.take_append, length_unitsOf]

theorem drop_flatMap_unitsOf_cons (n : Nat) (c : Char) (s : List Char) :
    ((c :: s).flatMap unitsOf).drop n =
      (unitsOf c).drop n ++ (s.flatMap unitsOf).drop (n - width c) := by
  rw [List.flatMap_cons, List.drop_append, length_unitsOf]

/-- A character that a cut goes through has two units, and the cut is between them. -/
theorem unitsOf_of_cut {c : Char} {n : Nat} (pos : n ≠ 0) (cut : ¬ width c ≤ n) :
    n = 1 ∧ ∃ high low, unitsOf c = [high, low] ∧ ofCode high = '\ufffd' ∧
      ofCode low = '\ufffd' ∧ ¬ (0xd800 ≤ low ∧ low < 0xdc00) := by
  have valid := toNat_valid c
  unfold width at cut
  split at cut
  · omega
  · next wide =>
    refine ⟨by omega, 0xd800 + (c.toNat - 0x10000) / 0x400, 0xdc00 + (c.toNat - 0x10000) % 0x400,
      if_neg wide, if_pos (by omega), if_pos (by omega), by omega⟩

/-- The first units of a text, read as characters. -/
theorem takeUnits_eq_ofCodes (n : Nat) (s : List Char) :
    takeUnits n s = ofCodes ((s.flatMap unitsOf).take n) := by
  induction s generalizing n with
  | nil => rw [takeUnits, List.flatMap_nil, List.take_nil, ofCodes]
  | cons c s ih =>
    rw [takeUnits, take_flatMap_unitsOf_cons]
    by_cases zero : n = 0
    · rw [if_pos zero, zero, List.take_zero, Nat.zero_sub, List.take_zero, List.append_nil, ofCodes]
    rw [if_neg zero]
    by_cases whole : width c ≤ n
    · have all : (unitsOf c).take n = unitsOf c :=
        List.take_of_length_le (by rwa [length_unitsOf])
      rw [if_pos whole, ih, all, ofCodes_unitsOf_append]
    · obtain ⟨rfl, high, low, hc, hhigh, -, -⟩ := unitsOf_of_cut zero whole
      have none_left : 1 - width c = 0 := by omega
      rw [if_neg whole, hc, none_left, List.take_zero, List.append_nil]
      exact congrArg (· :: []) hhigh.symm

/-- The last units of a text, read as characters. -/
theorem dropUnits_eq_ofCodes (n : Nat) (s : List Char) :
    dropUnits n s = ofCodes ((s.flatMap unitsOf).drop n) := by
  induction s generalizing n with
  | nil => rw [dropUnits, List.flatMap_nil, List.drop_nil, ofCodes]
  | cons c s ih =>
    rw [dropUnits, drop_flatMap_unitsOf_cons]
    by_cases zero : n = 0
    · rw [if_pos zero, zero, List.drop_zero, Nat.zero_sub, List.drop_zero, ofCodes_unitsOf_append,
        ofCodes_flatMap_unitsOf]
    rw [if_neg zero]
    by_cases whole : width c ≤ n
    · have nothing : (unitsOf c).drop n = [] :=
        List.drop_of_length_le (by rwa [length_unitsOf])
      rw [if_pos whole, ih, nothing, List.nil_append]
    · obtain ⟨rfl, high, low, hc, -, hlow, single⟩ := unitsOf_of_cut zero whole
      have none_left : 1 - width c = 0 := by omega
      rw [if_neg whole, hc, none_left, List.drop_zero, List.drop_one, List.tail_cons,
        List.singleton_append, ofCodes_cons single, hlow, ofCodes_flatMap_unitsOf]

/-! ## Cuts of two texts in a row -/

theorem width_pos (c : Char) : 0 < width c := by
  unfold width
  split <;> omega

theorem length_le_units (s : List Char) : s.length ≤ units s := by
  induction s with
  | nil => exact Nat.le_refl 0
  | cons c s ih =>
    have := width_pos c
    rw [List.length_cons, units_cons]
    omega

/-- A cut within the first text. -/
theorem takeUnits_append {n : Nat} {s : List Char} (h : n ≤ units s) (t : List Char) :
    takeUnits n (s ++ t) = takeUnits n s := by
  have within : n - (s.flatMap unitsOf).length = 0 := by
    rw [length_flatMap_unitsOf]
    exact Nat.sub_eq_zero_of_le h
  rw [takeUnits_eq_ofCodes, takeUnits_eq_ofCodes, List.flatMap_append, List.take_append, within,
    List.take_zero, List.append_nil]

theorem dropUnits_append {n : Nat} {s : List Char} (h : n ≤ units s) (t : List Char) :
    dropUnits n (s ++ t) = dropUnits n s ++ t := by
  induction s generalizing n with
  | nil =>
    obtain rfl : n = 0 := Nat.le_zero.1 h
    cases t <;> rfl
  | cons c s ih =>
    rw [List.cons_append, dropUnits, dropUnits]
    split
    · rfl
    · split
      · next whole =>
        rw [units_cons] at h
        exact ih (by omega)
      · rfl

/-- A cut that goes through a character or past it does not see its first unit. -/
theorem dropUnits_append_cons {n : Nat} {s : List Char} {c d : Char} (past : units s < n)
    (tails : (unitsOf c).tail = (unitsOf d).tail) (t : List Char) :
    dropUnits n (s ++ c :: t) = dropUnits n (s ++ d :: t) := by
  obtain ⟨k, rfl⟩ : ∃ k, n = (s.flatMap unitsOf).length + (k + 1) := by
    rw [length_flatMap_unitsOf]
    exact ⟨n - units s - 1, by omega⟩
  have filled (e : Char) : unitsOf e ≠ [] := by
    rw [← List.length_pos_iff, length_unitsOf]
    exact width_pos e
  have beyond (e : Char) : ((s ++ e :: t).flatMap unitsOf).drop
      ((s.flatMap unitsOf).length + (k + 1)) = ((unitsOf e).tail ++ t.flatMap unitsOf).drop k := by
    rw [List.flatMap_append, List.flatMap_cons, List.drop_length_add_append, ← List.drop_tail,
      List.tail_append_of_ne_nil (filled e)]
  rw [dropUnits_eq_ofCodes, dropUnits_eq_ofCodes, beyond, beyond, tails]

end ClusterUpgrade.Text
