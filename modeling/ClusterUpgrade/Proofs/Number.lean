import ClusterUpgrade.Number.Order

/-!
# Versions as numbers

A look-up compares versions by value. Every number but `Number.notANumber` has the value of itself
(`same_self`), and counting from numbers gives numbers (`larger_ne_notANumber`,
`successor_ne_notANumber`).
-/

namespace ClusterUpgrade.Number

theorem same_self {n : Number} (h : n ≠ notANumber) : n.same n = true := by
  cases n with
  | notANumber => exact absurd rfl h
  | infinite negative => exact beq_self_eq_true negative
  | finite negative mantissa exponent => exact decide_eq_true rfl

/-- What is below a number has another value. -/
theorem not_same_of_below {a b : Number} (h : a.below b = true) : a.same b = false := by
  cases a with
  | notANumber => rfl
  | infinite s => cases b <;> simp_all [below, same]
  | finite s m e =>
    cases b with
    | notANumber => rfl
    | infinite t => rfl
    | finite t n f =>
      have lt := of_decide_eq_true h
      exact decide_eq_false (Int.ne_of_lt lt)

theorem below_notANumber (n : Number) : n.below notANumber = false := by
  cases n <;> rfl

theorem larger_of_ne {b : Number} (h : b ≠ notANumber) (a : Number) :
    a.larger b = if a.below b then b else a := by
  simp [larger, h]

@[simp] theorem larger_notANumber (a : Number) : a.larger notANumber = notANumber :=
  if_pos (Or.inl rfl)

@[simp] theorem notANumber_larger (b : Number) : notANumber.larger b = notANumber := by
  cases b <;> rfl

theorem larger_ne_notANumber {a b : Number} (ha : a ≠ notANumber) (hb : b ≠ notANumber) :
    a.larger b ≠ notANumber := by
  rw [larger_of_ne hb]
  split
  · exact hb
  · exact ha

theorem ofParts_ne_notANumber (negative : Bool) (mantissa : Nat) (exponent : Int) :
    ofParts negative mantissa exponent ≠ notANumber := by
  unfold ofParts
  split
  · exact nofun
  · split <;> exact nofun

theorem ofQuotient_ne_notANumber (negative : Bool) (numerator denominator : Nat) :
    ofQuotient negative numerator denominator ≠ notANumber := by
  simp only [ofQuotient]
  split <;> exact ofParts_ne_notANumber _ _ _

theorem ofMagnitude_ne_notANumber (negative : Bool) (n : Nat) :
    ofMagnitude negative n ≠ notANumber := by
  unfold ofMagnitude
  split
  · exact nofun
  · exact ofQuotient_ne_notANumber _ _ _

theorem successor_ne_notANumber {n : Number} (h : n ≠ notANumber) : n.successor ≠ notANumber := by
  cases n with
  | notANumber => exact absurd rfl h
  | infinite negative => exact nofun
  | finite negative mantissa exponent =>
    simp only [successor]
    split
    · exact ofMagnitude_ne_notANumber _ _
    · exact ofQuotient_ne_notANumber _ _ _

/-- Up to `2 ^ 53` the versions that count something tell it from everything else. -/
theorem eq_of_same_ofNat {a b : Nat} (ha : a < powerOfTwo 53) (hb : b < powerOfTwo 53)
    (h : (ofNat a).same (ofNat b) = true) : a = b := by
  have bound : powerOfTwo 53 = 2 * leastMantissa := rfl
  rw [bound] at ha hb
  rw [same_ofNat ha hb] at h
  exact of_decide_eq_true h

theorem ofNat_ne_notANumber (n : Nat) : ofNat n ≠ notANumber := ofMagnitude_ne_notANumber false n

end ClusterUpgrade.Number
