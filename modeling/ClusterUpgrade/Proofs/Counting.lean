import ClusterUpgrade.Proofs.Number
import Mathlib.Algebra.Order.Field.Power
import Mathlib.Algebra.Order.Ring.Rat
import Mathlib.Logic.Function.Iterate
import Mathlib.Tactic.Linarith
import Mathlib.Tactic.Positivity
import Mathlib.Tactic.Ring

/-!
# Counting on

The version after a version is its `Number.successor`: one more, rounded to the nearest number. From
`2 ^ 53` on it may be the same number again. The next version of a store is the successor of the
highest one there is, so for versions to follow one another it takes that counting on from the
higher of two neighbours is counting on from the second (`successor_larger_successor`).

1. `below_finite_iff`: finite numbers are compared by their value.
2. `roundQuotient_near`, `exponentOf_bounds`: how far rounding goes.
3. `coarse_of_not_below`: where one more is not above a number, numbers are two apart at least.
4. `Coarse.successor_ofParts`: there counting stands still.
-/

namespace ClusterUpgrade.Number

/-! ## Values -/

/-- The value of a finite number. -/
def value : Number → ℚ
  | finite negative mantissa exponent => (if negative then -1 else 1) * mantissa * 2 ^ exponent
  | _ => 0

theorem cast_powerOfTwo (n : Nat) : ((powerOfTwo n : Nat) : ℚ) = 2 ^ n := by
  show ((2 ^ n : Nat) : ℚ) = 2 ^ n
  rw [Nat.cast_pow, Nat.cast_ofNat]

theorem powerOfTwo_pos (n : Nat) : 0 < powerOfTwo n := Nat.two_pow_pos n

theorem powerOfTwo_add (a b : Nat) : powerOfTwo (a + b) = powerOfTwo a * powerOfTwo b :=
  Nat.pow_add 2 a b

theorem zpow_toNat {e : Int} (h : 0 ≤ e) : (2 : ℚ) ^ e.toNat = 2 ^ e := by
  rw [← zpow_natCast, Int.toNat_of_nonneg h]

theorem value_natural (m : Nat) (e : Int) : value (finite false m e) = m * 2 ^ e := by
  show (if false = true then -1 else 1) * (m : ℚ) * 2 ^ e = m * 2 ^ e
  rw [if_neg Bool.false_ne_true, one_mul]

/-- A multiple is the value in units. -/
theorem cast_multiple (negative : Bool) (mantissa : Nat) {exponent unit : Int}
    (h : unit ≤ exponent) : (multiple negative mantissa exponent unit : ℚ) =
      value (finite negative mantissa exponent) / 2 ^ unit := by
  have scale : (2 : ℚ) ^ (exponent - unit).toNat = 2 ^ exponent / 2 ^ unit := by
    rw [zpow_toNat (by omega), zpow_sub₀ two_ne_zero]
  unfold multiple value
  cases negative with
  | false =>
    simp only [Bool.false_eq_true, if_false]
    push_cast
    rw [cast_powerOfTwo, scale]
    ring
  | true =>
    simp only [if_true]
    push_cast
    rw [cast_powerOfTwo, scale]
    ring

theorem below_finite_iff {s t : Bool} {m n : Nat} {e f : Int} :
    (finite s m e).below (finite t n f) = true ↔ value (finite s m e) < value (finite t n f) := by
  have unit : (0 : ℚ) < 2 ^ min e f := by positivity
  show decide (_ < _) = true ↔ _
  rw [decide_eq_true_iff, ← Int.cast_lt (R := ℚ), cast_multiple _ _ (min_le_left e f),
    cast_multiple _ _ (min_le_right e f), div_lt_div_iff_of_pos_right unit]

/-! ## Rounding -/

theorem value_halved (bound m : Nat) (e : Int) :
    value (finite false (halved bound m e).1 (halved bound m e).2) = value (finite false m e) := by
  induction bound generalizing m e with
  | zero => rfl
  | succ bound ih =>
    unfold halved
    split
    · next h =>
      have even : (m : ℚ) = 2 * (m / 2 : Nat) := by
        rw [← Nat.cast_ofNat (R := ℚ), ← Nat.cast_mul]
        congr 1
        omega
      rw [ih, value_natural, value_natural, even, zpow_add_one₀ two_ne_zero]
      ring
    · rfl

/-- What is below the value of rounded parts is below the number. -/
theorem below_ofParts {s : Bool} {m n : Nat} {e f : Int}
    (h : value (finite s m e) < n * 2 ^ f) : (finite s m e).below (ofParts false n f) = true := by
  unfold ofParts
  split
  · next zero =>
    rw [below_finite_iff, value_natural]
    simpa [zero] using h
  · split
    · rfl
    · rw [below_finite_iff, value_halved, value_natural]
      exact h

/-- The mantissa of a rounded quotient, before it is brought into form. -/
def roundedMantissa (p q : Nat) : Nat :=
  roundQuotient (scaled p q (exponentOf p q)).1 (scaled p q (exponentOf p q)).2

theorem ofQuotient_eq (p q : Nat) : ofQuotient false p q =
    if roundedMantissa p q = 2 * leastMantissa then ofParts false leastMantissa (exponentOf p q + 1)
    else ofParts false (roundedMantissa p q) (exponentOf p q) := rfl

theorem below_ofQuotient {s : Bool} {m p q : Nat} {e : Int}
    (h : value (finite s m e) < roundedMantissa p q * 2 ^ exponentOf p q) :
    (finite s m e).below (ofQuotient false p q) = true := by
  rw [ofQuotient_eq]
  split
  · next full =>
    apply below_ofParts
    rw [full] at h
    push_cast at h
    rw [zpow_add_one₀ two_ne_zero]
    linarith
  · exact below_ofParts h

theorem scaled_pos (p : Nat) {q : Nat} (hq : 0 < q) (e : Int) : 0 < (scaled p q e).2 := by
  unfold scaled
  split
  · exact Nat.mul_pos hq (powerOfTwo_pos _)
  · exact hq

theorem scaled_div (p : Nat) {q : Nat} (hq : 0 < q) (e : Int) :
    ((scaled p q e).1 : ℚ) / (scaled p q e).2 = p / q / 2 ^ e := by
  have hq' : (q : ℚ) ≠ 0 := by exact_mod_cast hq.ne'
  unfold scaled
  split
  · next he =>
    simp only [Nat.cast_mul, cast_powerOfTwo, zpow_toNat he, div_div]
  · next he =>
    have inverse : (2 : ℚ) ^ (-e).toNat = (2 ^ e)⁻¹ := by
      rw [zpow_toNat (by omega), zpow_neg]
    simp only [Nat.cast_mul, cast_powerOfTwo, inverse]
    rw [div_div, mul_comm (q : ℚ), ← div_div, div_eq_mul_inv (p : ℚ)]

/-- A quotient exceeds its rounding by half at most, and by a half only above an even number. -/
theorem roundQuotient_near (n : Nat) {d : Nat} (hd : 0 < d) :
    2 * n ≤ (2 * roundQuotient n d + 1) * d ∧
      (2 * n = (2 * roundQuotient n d + 1) * d → roundQuotient n d % 2 = 0) := by
  have whole : d * (n / d) + n % d = n := Nat.div_add_mod n d
  have small : n % d < d := Nat.mod_lt n hd
  have low : (2 * (n / d) + 1) * d = 2 * (d * (n / d)) + d := by ring
  have high : (2 * (n / d + 1) + 1) * d = 2 * (d * (n / d)) + 3 * d := by ring
  simp only [roundQuotient]
  split
  · rw [low]
    omega
  · split
    · rw [high]
      omega
    · split
      · rw [low]
        omega
      · rw [high]
        omega

theorem le_roundQuotient (n d : Nat) : n / d ≤ roundQuotient n d := by
  simp only [roundQuotient]
  split_ifs <;> omega

theorem roundQuotient_le (n d : Nat) : roundQuotient n d ≤ n / d + 1 := by
  simp only [roundQuotient]
  split_ifs <;> omega

/-- Where adding one does not lead above a number, numbers are two apart at least; where they are
just two apart, the mantissa is even. -/
theorem coarse_of_not_below {s : Bool} {m p q : Nat} {e : Int} (hq : 0 < q)
    (sum : value (finite s m e) + 1 = p / q)
    (h : (finite s m e).below (ofQuotient false p q) = false) :
    1 ≤ exponentOf p q ∧ (exponentOf p q = 1 → roundedMantissa p q % 2 = 0) := by
  have above : (roundedMantissa p q : ℚ) * 2 ^ exponentOf p q ≤ value (finite s m e) := by
    rw [← not_lt]
    intro hlt
    rw [below_ofQuotient hlt] at h
    cases h
  have pos : (0 : ℚ) < (scaled p q (exponentOf p q)).2 := by exact_mod_cast scaled_pos p hq _
  have unit : (0 : ℚ) < 2 ^ exponentOf p q := by positivity
  obtain ⟨near, tie⟩ := roundQuotient_near (scaled p q (exponentOf p q)).1 (scaled_pos p hq _)
  have near' : ((p : ℚ) / q) / 2 ^ exponentOf p q ≤ roundedMantissa p q + 1 / 2 := by
    rw [← scaled_div p hq, div_le_iff₀ pos]
    have : (2 * (scaled p q (exponentOf p q)).1 : ℚ) ≤
        (2 * roundedMantissa p q + 1) * (scaled p q (exponentOf p q)).2 := by exact_mod_cast near
    linarith
  -- The rounding has lost the whole one, and loses half a unit at most.
  rw [div_le_iff₀ unit, ← sum] at near'
  have two : (2 : ℚ) ^ (1 : Int) ≤ 2 ^ exponentOf p q := by
    rw [zpow_one]
    linarith
  refine ⟨(zpow_le_zpow_iff_right₀ one_lt_two).1 two, ?_⟩
  intro one
  rw [one, zpow_one] at near' above
  apply tie
  have exact_half : ((scaled p q (exponentOf p q)).1 : ℚ) / (scaled p q (exponentOf p q)).2 =
      roundedMantissa p q + 1 / 2 := by
    rw [scaled_div p hq, one, zpow_one, ← sum]
    linarith
  rw [div_eq_iff pos.ne'] at exact_half
  have : (2 * (scaled p q (exponentOf p q)).1 : ℚ) =
      (2 * roundedMantissa p q + 1) * (scaled p q (exponentOf p q)).2 := by
    rw [exact_half]
    ring
  exact_mod_cast this

theorem powerOfTwo_log2_le {n : Nat} (h : 0 < n) : powerOfTwo n.log2 ≤ n :=
  Nat.log2_self_le h.ne'

theorem lt_powerOfTwo_log2 (n : Nat) : n < powerOfTwo (n.log2 + 1) := Nat.lt_log2_self

/-- A quotient in units of the exponent that it gets has 53 bits, if that is not the least
exponent. -/
theorem exponentOf_bounds {p q k : Nat} (hp : 0 < p) (hq : 0 < q) (h : exponentOf p q = k)
    (hk : 0 < k) : leastMantissa * (q * powerOfTwo k) ≤ p ∧
      p < 2 * leastMantissa * (q * powerOfTwo k) := by
  have hp₁ := powerOfTwo_log2_le hp
  have hp₂ := lt_powerOfTwo_log2 p
  have hq₁ := powerOfTwo_log2_le hq
  have hq₂ := lt_powerOfTwo_log2 q
  have bits : leastMantissa = powerOfTwo 52 := rfl
  generalize hguess : (p.log2 : Int) - (q.log2 : Int) - 52 = guess
  have unfolded : exponentOf p q = max (-1074)
      (if (scaled p q guess).1 / (scaled p q guess).2 < leastMantissa then guess - 1 else guess) := by
    rw [← hguess]
    rfl
  rw [unfolded] at h
  split at h
  · -- The guess was one too high.
    next low =>
    have hguess' : guess = (k + 1 : Nat) := by omega
    rw [hguess', scaled, if_pos (by omega), Int.toNat_natCast] at low
    rw [Nat.div_lt_iff_lt_mul (Nat.mul_pos hq (powerOfTwo_pos _)), powerOfTwo_add k 1] at low
    have hlog : p.log2 = q.log2 + 1 + 52 + k := by omega
    rw [hlog, powerOfTwo_add, powerOfTwo_add _ 52, ← bits] at hp₁
    constructor
    · calc leastMantissa * (q * powerOfTwo k)
          ≤ leastMantissa * (powerOfTwo (q.log2 + 1) * powerOfTwo k) :=
            Nat.mul_le_mul_left _ (Nat.mul_le_mul_right _ hq₂.le)
        _ = powerOfTwo (q.log2 + 1) * leastMantissa * powerOfTwo k := by ring
        _ ≤ p := hp₁
    · calc p < leastMantissa * (q * (powerOfTwo k * powerOfTwo 1)) := low
        _ = 2 * leastMantissa * (q * powerOfTwo k) := by
          rw [show powerOfTwo 1 = 2 from rfl]
          ring
  · next high =>
    have hguess' : guess = k := by omega
    rw [hguess', scaled, if_pos (by omega), Int.toNat_natCast, not_lt,
      Nat.le_div_iff_mul_le (Nat.mul_pos hq (powerOfTwo_pos _))] at high
    have hlog : p.log2 + 1 = q.log2 + (1 + 52) + k := by omega
    rw [hlog, powerOfTwo_add, powerOfTwo_add, powerOfTwo_add 1, ← bits] at hp₂
    refine ⟨high, ?_⟩
    calc p < powerOfTwo q.log2 * (powerOfTwo 1 * leastMantissa) * powerOfTwo k := hp₂
      _ ≤ q * (powerOfTwo 1 * leastMantissa) * powerOfTwo k :=
        Nat.mul_le_mul_right _ (Nat.mul_le_mul_right _ hq₁)
      _ = 2 * leastMantissa * (q * powerOfTwo k) := by
        rw [show powerOfTwo 1 = 2 from rfl]
        ring

/-! ## Where counting stands still -/

/-- A mantissa of 53 bits whose last bit counts two at least; where it counts just two, the mantissa
is even. -/
structure Coarse (m k : Nat) : Prop where
  least : leastMantissa ≤ m
  most : m < 2 * leastMantissa
  pos : 0 < k
  even : k = 1 → m % 2 = 0

theorem Coarse.ofParts_eq {m k : Nat} (h : Coarse m k) : ofParts false m k =
    if 971 < (k : Int) then infinite false else finite false m k := by
  have nonzero : m ≠ 0 := by
    have := h.least
    have : 0 < leastMantissa := powerOfTwo_pos 52
    omega
  have whole : halved 53 m k = (m, (k : Int)) := by
    rw [halved, if_neg (by omega)]
  rw [ofParts, if_neg nonzero, whole]

theorem Coarse.two_le {m k : Nat} (h : Coarse m k) : 2 ≤ powerOfTwo k :=
  Nat.pow_le_pow_right (n := 2) Nat.two_pos h.pos

theorem Coarse.log2_eq {m k : Nat} (h : Coarse m k) : (m * powerOfTwo k + 1).log2 = 52 + k := by
  have low : powerOfTwo (52 + k) ≤ m * powerOfTwo k := by
    rw [powerOfTwo_add]
    exact Nat.mul_le_mul_right _ h.least
  have high : m * powerOfTwo k + powerOfTwo k ≤ powerOfTwo (52 + k + 1) := by
    rw [show powerOfTwo (52 + k + 1) = 2 * leastMantissa * powerOfTwo k by
      rw [powerOfTwo_add, powerOfTwo_add, show powerOfTwo 1 = 2 from rfl]
      unfold leastMantissa
      ring, ← Nat.succ_mul]
    exact Nat.mul_le_mul_right _ h.most
  have two := h.two_le
  rw [Nat.log2_eq_iff (by omega)]
  show powerOfTwo (52 + k) ≤ _ ∧ _ < powerOfTwo (52 + k + 1)
  omega

theorem Coarse.quotient_eq {m k : Nat} (h : Coarse m k) :
    (m * powerOfTwo k + 1) / (1 * powerOfTwo k) = m ∧
      (m * powerOfTwo k + 1) % (1 * powerOfTwo k) = 1 := by
  have two := h.two_le
  rw [Nat.one_mul, Nat.add_comm, Nat.add_mul_div_right _ _ (by omega), Nat.add_mul_mod_self_right,
    Nat.div_eq_of_lt (by omega), Nat.mod_eq_of_lt (by omega), Nat.zero_add]
  exact ⟨rfl, rfl⟩

theorem Coarse.exponentOf_eq {m k : Nat} (h : Coarse m k) :
    exponentOf (m * powerOfTwo k + 1) 1 = k := by
  have guess : ((m * powerOfTwo k + 1).log2 : Int) - ((1 : Nat).log2 : Int) - 52 = k := by
    rw [h.log2_eq, show (1 : Nat).log2 = 0 from rfl]
    omega
  simp only [exponentOf, guess, scaled, if_pos (Int.natCast_nonneg k), Int.toNat_natCast,
    h.quotient_eq.1, if_neg (Nat.not_lt.2 h.least)]
  omega

/-- One more than a coarse number is rounded to the number itself. -/
theorem Coarse.ofQuotient_eq {m k : Nat} (h : Coarse m k) :
    ofQuotient false (m * powerOfTwo k + 1) 1 = ofParts false m k := by
  have rounded : roundQuotient (m * powerOfTwo k + 1) (1 * powerOfTwo k) = m := by
    have two := h.two_le
    simp only [roundQuotient, h.quotient_eq]
    split
    · rfl
    · split
      · omega
      · have half : powerOfTwo k = powerOfTwo 1 := by
          rw [show powerOfTwo 1 = 2 from rfl]
          omega
        rw [if_pos (h.even (Nat.pow_right_injective (Nat.le_refl 2) half))]
  have mantissa : roundedMantissa (m * powerOfTwo k + 1) 1 = m := by
    rw [roundedMantissa, h.exponentOf_eq, scaled, if_pos (Int.natCast_nonneg k), Int.toNat_natCast]
    exact rounded
  rw [Number.ofQuotient_eq, mantissa, h.exponentOf_eq, if_neg (Nat.ne_of_lt h.most)]

theorem Coarse.successor_ofParts {m k : Nat} (h : Coarse m k) :
    (ofParts false m k).successor = ofParts false m k := by
  have large : ¬ m * powerOfTwo k + 1 < 2 * leastMantissa := by
    have := Nat.mul_le_mul h.least h.two_le
    omega
  have sum : multiple false m k 0 + powerOfTwo (-(0 : Int)).toNat =
      ((m * powerOfTwo k + 1 : Nat) : Int) := by
    simp [multiple, show powerOfTwo 0 = 1 from rfl]
  rw [h.ofParts_eq]
  split
  · rfl
  · next fits =>
    have unit : min (k : Int) 0 = 0 := by omega
    simp only [successor, unit, true_or, if_true, sum]
    rw [ofInt_natCast, ofNat, ofMagnitude, if_neg large, h.ofQuotient_eq, h.ofParts_eq, if_neg fits]

/-- A rounded quotient with an exponent above zero is coarse. -/
theorem exists_coarse {p q k : Nat} (hp : 0 < p) (hq : 0 < q) (h : exponentOf p q = k) (hk : 0 < k)
    (even : k = 1 → roundedMantissa p q % 2 = 0) :
    ∃ m l, Coarse m l ∧ ofQuotient false p q = ofParts false m l := by
  obtain ⟨least, most⟩ := exponentOf_bounds hp hq h hk
  have parts : scaled p q k = (p, q * powerOfTwo k) := by
    rw [scaled, if_pos (Int.natCast_nonneg k), Int.toNat_natCast]
  have mantissa : roundedMantissa p q = roundQuotient p (q * powerOfTwo k) := by
    rw [roundedMantissa, h, parts]
  have pos : 0 < q * powerOfTwo k := Nat.mul_pos hq (powerOfTwo_pos k)
  rw [← Nat.le_div_iff_mul_le pos] at least
  rw [← Nat.div_lt_iff_lt_mul pos] at most
  have low := le_roundQuotient p (q * powerOfTwo k)
  have high := roundQuotient_le p (q * powerOfTwo k)
  rw [ofQuotient_eq, h]
  split
  · refine ⟨leastMantissa, k + 1, ⟨Nat.le_refl _, ?_, Nat.succ_pos k, fun one => by omega⟩, rfl⟩
    have := powerOfTwo_pos 52
    unfold leastMantissa
    omega
  · exact ⟨roundedMantissa p q, k, ⟨by omega, by omega, hk, even⟩, rfl⟩

/-- One more than a number that is not negative is a quotient, rounded where it has to be. -/
theorem successor_natural (m : Nat) (e : Int) : ∃ p q : Nat, 0 < p ∧ 0 < q ∧
    value (finite false m e) + 1 = (p : ℚ) / q ∧
      ((q = 1 ∧ (finite false m e).successor = finite false p 0) ∨
        (finite false m e).successor = ofQuotient false p q) := by
  have one : powerOfTwo 0 = 1 := rfl
  by_cases he : 0 ≤ e
  · have unit : min e 0 = 0 := by omega
    have sum : multiple false m e 0 + powerOfTwo (-(0 : Int)).toNat =
        ((m * powerOfTwo e.toNat + 1 : Nat) : Int) := by
      simp [multiple, one]
    refine ⟨m * powerOfTwo e.toNat + 1, 1, Nat.succ_pos _, Nat.one_pos, ?_, ?_⟩
    · rw [value_natural]
      push_cast
      rw [cast_powerOfTwo, zpow_toNat he, div_one]
    · simp only [successor, unit, true_or, if_true, sum]
      rw [ofInt_natCast, ofNat, ofMagnitude]
      split
      · exact Or.inl ⟨trivial, rfl⟩
      · exact Or.inr rfl
  · have unit : min e 0 = e := by omega
    have sum : multiple false m e e + powerOfTwo (-e).toNat =
        ((m + powerOfTwo (-e).toNat : Nat) : Int) := by
      simp [multiple, one]
    have pos := powerOfTwo_pos (-e).toNat
    refine ⟨m + powerOfTwo (-e).toNat, powerOfTwo (-e).toNat, by omega, pos, ?_, Or.inr ?_⟩
    · have scale : (powerOfTwo (-e).toNat : ℚ) = (2 ^ e)⁻¹ := by
        rw [cast_powerOfTwo, zpow_toNat (by omega), zpow_neg]
      rw [value_natural, Nat.cast_add, scale, div_inv_eq_mul, add_mul,
        inv_mul_cancel₀ (zpow_ne_zero e two_ne_zero)]
    · have nonneg : ¬ ((m + powerOfTwo (-e).toNat : Nat) : Int) < 0 := by omega
      have nonzero : ¬ (e = 0 ∨ ((m + powerOfTwo (-e).toNat : Nat) : Int) = 0) := by omega
      simp only [successor, unit, sum, if_neg nonzero, decide_eq_false nonneg, Int.natAbs_natCast]

/-- Where the successor of a number is not above it, counting stands still. -/
theorem successor_successor_of_not_below {m : Nat} {e : Int}
    (h : (finite false m e).below (finite false m e).successor = false) :
    (finite false m e).successor.successor = (finite false m e).successor := by
  obtain ⟨p, q, hp, hq, sum, ⟨rfl, hs⟩ | hs⟩ := successor_natural m e
  · have above : (finite false m e).below (finite false m e).successor = true := by
      rw [hs, below_finite_iff, value_natural p, zpow_zero, mul_one]
      rw [Nat.cast_one, div_one] at sum
      linarith
    rw [above] at h
    cases h
  · rw [hs] at h ⊢
    obtain ⟨one_le, even⟩ := coarse_of_not_below hq sum h
    obtain ⟨k, hk⟩ := Int.eq_ofNat_of_zero_le (by omega : 0 ≤ exponentOf p q)
    obtain ⟨m', l, coarse, hparts⟩ := exists_coarse hp hq hk (by omega) (by omega)
    rw [hparts, coarse.successor_ofParts]

/-! ## The highest of several numbers -/

/-- A number without a minus sign, or none at all. -/
def IsUnsigned : Number → Prop
  | finite negative _ _ | infinite negative => negative = false
  | notANumber => True

/-- What is above a number without a minus sign has none. -/
theorem IsUnsigned.of_below {a b : Number} (h : a.IsUnsigned) (below : a.below b = true) :
    b.IsUnsigned := by
  cases a with
  | notANumber => cases b <;> cases below
  | infinite s =>
    obtain rfl : s = false := h
    cases b <;> cases below
  | finite s m e =>
    obtain rfl : s = false := h
    cases b with
    | notANumber => cases below
    | infinite t =>
      cases t with
      | false => rfl
      | true => cases below
    | finite t n f =>
      cases t with
      | false => rfl
      | true =>
        rw [below_finite_iff, value_natural] at below
        have low : (0 : ℚ) ≤ m * 2 ^ e := by positivity
        have high : value (finite true n f) ≤ 0 := by
          have : (0 : ℚ) ≤ n * 2 ^ f := by positivity
          show (if true = true then -1 else 1) * (n : ℚ) * 2 ^ f ≤ 0
          rw [if_pos rfl]
          linarith
        linarith

theorem IsUnsigned.larger {a : Number} (h : a.IsUnsigned) (b : Number) :
    (a.larger b).IsUnsigned := by
  by_cases number : b = notANumber
  · rw [number, larger_notANumber]
    exact trivial
  · rw [larger_of_ne number]
    split
    · next below => exact h.of_below below
    · exact h

theorem below_trans {a b c : Number} (hab : a.below b = true) (hbc : b.below c = true) :
    a.below c = true := by
  cases a with
  | notANumber => cases hab
  | infinite s => cases b <;> cases c <;> simp_all [below]
  | finite s m e =>
    cases b with
    | notANumber => cases hab
    | infinite t => cases c <;> simp_all [below]
    | finite t n f =>
      cases c with
      | notANumber => cases hbc
      | infinite u => exact hbc
      | finite u l g =>
        rw [below_finite_iff] at hab hbc ⊢
        exact hab.trans hbc

/-- What is not above a number is not above the larger of it and another. -/
theorem larger_below {a m : Number} (b : Number) (h : a.below m = false) :
    (a.larger b).below m = false := by
  by_cases number : b = notANumber
  · rw [number, larger_notANumber]
    cases m <;> rfl
  · rw [larger_of_ne number]
    split
    · next hb =>
      rw [← Bool.not_eq_true]
      intro hm
      rw [below_trans hb hm] at h
      cases h
    · exact h

theorem larger_below_right (a b : Number) : (a.larger b).below b = false := by
  by_cases number : b = notANumber
  · rw [number]
    exact below_notANumber _
  · rw [larger_of_ne number, ← Bool.not_eq_true]
    intro below
    split at below
    · exact absurd (same_self number) (by simp [not_same_of_below below])
    · next not_below => exact not_below below

/-- Counting goes on in the same way, whether or not the last number is above the one before. -/
theorem successor_larger_successor {a : Number} (h : a.IsUnsigned) :
    (a.larger a.successor).successor = a.successor.successor := by
  cases a with
  | notANumber => rfl
  | infinite s => cases s <;> rfl
  | finite s m e =>
    obtain rfl : s = false := h
    have number : (finite false m e).successor ≠ notANumber := successor_ne_notANumber nofun
    rw [larger_of_ne number]
    split
    · rfl
    · next below =>
      exact (successor_successor_of_not_below (Bool.eq_false_of_not_eq_true below)).symm

end ClusterUpgrade.Number
