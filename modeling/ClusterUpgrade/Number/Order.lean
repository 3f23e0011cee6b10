import ClusterUpgrade.Number.Binary

/-!
# The order of numbers

Numbers are compared by value: both zeros are one value, and the value that is not a number is
neither below, above nor the same as any other. `Number.successor` adds one and rounds, so that it
counts through the whole numbers up to `2 ^ 53` (`successor_ofNat`) and stands still above.
-/

namespace ClusterUpgrade.Number

/-- A finite number as a multiple of a power of two whose exponent is not above its own. -/
def multiple (negative : Bool) (mantissa : Nat) (exponent unit : Int) : Int :=
  let n : Int := mantissa * powerOfTwo (exponent - unit).toNat
  if negative then -n else n

def below : Number → Number → Bool
  | finite s m e, finite t n f => multiple s m e (min e f) < multiple t n f (min e f)
  | infinite s, infinite t => s && !t
  | infinite s, finite .. => s
  | finite .., infinite t => !t
  | _, _ => false

/-- Whether two numbers have one value. -/
def same : Number → Number → Bool
  | finite s m e, finite t n f => multiple s m e (min e f) = multiple t n f (min e f)
  | infinite s, infinite t => s == t
  | _, _ => false

/-- The larger of two numbers. It is not a number if one of them is none. -/
def larger (a b : Number) : Number := if b = notANumber ∨ a.below b then b else a

/-- The number nearest to the one that is greater by one. -/
def successor : Number → Number
  | finite s m e =>
    let unit := min e 0
    let n := multiple s m e unit + powerOfTwo (-unit).toNat
    if unit = 0 ∨ n = 0 then ofInt n
    else ofQuotient (decide (n < 0)) n.natAbs (powerOfTwo (-unit).toNat)
  | n => n

/-! ## Natural numbers below `2 ^ 53` -/

/-- The number of a natural number, or the nearest one to it. -/
def ofNat (n : Nat) : Number := ofMagnitude false n

theorem ofNat_of_lt {n : Nat} (h : n < 2 * leastMantissa) : ofNat n = finite false n 0 := by
  simp [ofNat, ofMagnitude, h]

theorem ofInt_natCast (n : Nat) : ofInt n = ofNat n := by
  have h : ¬ (n : Int) < 0 := by omega
  simp [ofInt, ofNat, h]

theorem multiple_zero (negative : Bool) (n : Nat) :
    multiple negative n 0 0 = if negative then -(n : Int) else n := by
  have h : powerOfTwo 0 = 1 := rfl
  simp [multiple, h]

theorem below_ofNat {a b : Nat} (ha : a < 2 * leastMantissa) (hb : b < 2 * leastMantissa) :
    (ofNat a).below (ofNat b) = decide (a < b) := by
  simp [ofNat_of_lt ha, ofNat_of_lt hb, below, multiple_zero]

theorem same_ofNat {a b : Nat} (ha : a < 2 * leastMantissa) (hb : b < 2 * leastMantissa) :
    (ofNat a).same (ofNat b) = decide (a = b) := by
  simp only [ofNat_of_lt ha, ofNat_of_lt hb, same, Int.min_self, multiple_zero]
  exact decide_eq_decide.2 Int.ofNat_inj

theorem successor_ofNat {n : Nat} (h : n < 2 * leastMantissa) :
    (ofNat n).successor = ofNat (n + 1) := by
  have one : powerOfTwo 0 = 1 := rfl
  simp only [ofNat_of_lt h, successor, Int.min_self, multiple_zero, Int.neg_zero, Int.toNat_zero,
    one, true_or, if_true]
  exact ofInt_natCast (n + 1)

end ClusterUpgrade.Number
