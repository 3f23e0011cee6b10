/-!
# Binary numbers

The numbers of documents are binary floating point numbers of 64 bits: a mantissa below `2 ^ 53`
times a power of two between `2 ^ -1074` and `2 ^ 971`, the two infinities and the value that is not
a number. A decimal number is read as the nearest of them; of two that are equally near, the one
with an even mantissa is taken.
-/

namespace ClusterUpgrade

/-- A number of a document. A finite one is `mantissa * 2 ^ exponent` in one of three forms: a whole
number below `2 ^ 53` has the exponent zero, a greater one has a mantissa of 53 bits, and a number
that is not whole has an odd mantissa. -/
inductive Number where
  | notANumber
  | infinite (negative : Bool)
  | finite (negative : Bool) (mantissa : Nat) (exponent : Int)
  deriving DecidableEq

namespace Number

/-- Zero, without a sign. -/
def zero : Number := finite false 0 0

instance : Inhabited Number := ⟨zero⟩

def powerOfTwo (exponent : Nat) : Nat := Nat.pow 2 exponent

def powerOfTen (exponent : Nat) : Nat := Nat.pow 10 exponent

/-- The least mantissa of 53 bits. -/
def leastMantissa : Nat := powerOfTwo 52

/-- The quotient rounded to the nearest natural number, a tie to the even one. -/
def roundQuotient (numerator denominator : Nat) : Nat :=
  let quotient := numerator / denominator
  let rest := numerator % denominator
  if 2 * rest < denominator then quotient
  else if denominator < 2 * rest then quotient + 1
  else if quotient % 2 = 0 then quotient else quotient + 1

/-- The quotient of two natural numbers divided by `2 ^ exponent`, as a new quotient. -/
def scaled (numerator denominator : Nat) (exponent : Int) : Nat × Nat :=
  if 0 ≤ exponent then (numerator, denominator * powerOfTwo exponent.toNat)
  else (numerator * powerOfTwo (-exponent).toNat, denominator)

/-- The exponent with which a positive quotient has a mantissa of 53 bits, or the least one. -/
def exponentOf (numerator denominator : Nat) : Int :=
  let guess : Int := (numerator.log2 : Int) - (denominator.log2 : Int) - 52
  let (n, d) := scaled numerator denominator guess
  max (-1074) (if n / d < leastMantissa then guess - 1 else guess)

/-- Halves an even mantissa as long as the exponent is negative. -/
def halved : (bound mantissa : Nat) → (exponent : Int) → Nat × Int
  | 0, mantissa, exponent => (mantissa, exponent)
  | bound + 1, mantissa, exponent =>
    if exponent < 0 ∧ mantissa % 2 = 0 then halved bound (mantissa / 2) (exponent + 1)
    else (mantissa, exponent)

/-- The number `mantissa * 2 ^ exponent`, for a mantissa of 53 bits or the least exponent. -/
def ofParts (negative : Bool) (mantissa : Nat) (exponent : Int) : Number :=
  if mantissa = 0 then finite negative 0 0
  else if 971 < exponent then infinite negative
  else
    let (mantissa, exponent) := halved 53 mantissa exponent
    finite negative mantissa exponent

/-- The number nearest to a positive quotient. -/
def ofQuotient (negative : Bool) (numerator denominator : Nat) : Number :=
  let exponent := exponentOf numerator denominator
  let (n, d) := scaled numerator denominator exponent
  let mantissa := roundQuotient n d
  if mantissa = 2 * leastMantissa then ofParts negative leastMantissa (exponent + 1)
  else ofParts negative mantissa exponent

/-- The number nearest to a natural number, with a sign. -/
def ofMagnitude (negative : Bool) (n : Nat) : Number :=
  if n < 2 * leastMantissa then finite negative n 0 else ofQuotient negative n 1

/-- The number nearest to an integer. -/
def ofInt (n : Int) : Number := ofMagnitude (decide (n < 0)) n.natAbs

/-- The number nearest to `digits * 10 ^ exponent`. A decimal below `10 ^ -330` is zero and one
above `10 ^ 500` infinite, whatever its digits are. -/
def ofDecimal (negative : Bool) (digits : Nat) (exponent : Int) : Number :=
  if digits = 0 ∨ ((digits.log2 / 3 : Nat) : Int) + 1 + exponent < -330 then finite negative 0 0
  else if 500 < exponent then infinite negative
  else if 0 ≤ exponent then ofMagnitude negative (digits * powerOfTen exponent.toNat)
  else ofQuotient negative digits (powerOfTen (-exponent).toNat)

end Number

end ClusterUpgrade
