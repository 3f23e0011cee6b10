import ClusterUpgrade.Number.Binary

/-!
# Number texts

A number is written with the fewest digits that read back as the same number, of several such digit
strings with the one nearest to the number, of two equally near ones the even one. Values from
`10 ^ -6` up to below `10 ^ 21` are written without an exponent.

A positive value `m * 2 ^ e` is read back from every decimal between the middle points to its two
neighbours, and from the middle points themselves when `m` is even. For 1, 2, ... 17 digits the two
decimals on either side of the value are tried; the step to "no shorter" is that a grid with a point
in the interval has one next to the value.
-/

namespace ClusterUpgrade.Number

/-- The closed or open interval of decimals that read back as one number; all three values are
multiples of one unit, the quotient `numerator / denominator`. -/
structure Interval where
  low : Nat
  value : Nat
  high : Nat
  numerator : Nat
  denominator : Nat
  closed : Bool

/-- The interval of a positive number, in units of a quarter of its last place. -/
def interval (mantissa : Nat) (exponent : Int) : Interval :=
  let (numerator, denominator) := scaled 1 1 (-(exponent - 2))
  let below := if mantissa = leastMantissa ∧ exponent ≠ -1074 then 1 else 2
  { low := 4 * mantissa - below
    value := 4 * mantissa
    high := 4 * mantissa + 2
    numerator
    denominator
    closed := mantissa % 2 = 0 }

/-- Whether `digits * up / down` lies in the interval. -/
def Interval.holds (i : Interval) (digits up down : Nat) : Bool :=
  let x := digits * up * i.denominator
  let low := i.low * i.numerator * down
  let high := i.high * i.numerator * down
  if i.closed then low ≤ x ∧ x ≤ high else low < x ∧ x < high

/-- The exponent `p` with `10 ^ (p - 1) ≤ value < 10 ^ p`, searched upwards from a lower bound. -/
def decimalPlace (numerator denominator : Nat) : (steps : Nat) → Int → Int
  | 0, p => p
  | steps + 1, p =>
    let reached :=
      if 0 ≤ p then numerator < denominator * powerOfTen p.toNat
      else numerator * powerOfTen (-p).toNat < denominator
    if reached then p else decimalPlace numerator denominator steps (p + 1)

/-- The decimals with `count` digits next to a value of magnitude `place`: the one in the interval
that is nearer to the value, if there is one. -/
def candidate? (i : Interval) (place : Int) (count : Nat) : Option Nat :=
  let unit : Int := place - count
  let up := if 0 ≤ unit then powerOfTen unit.toNat else 1
  let down := if 0 ≤ unit then 1 else powerOfTen (-unit).toNat
  let exact := i.value * i.numerator * down
  let grid := i.denominator * up
  let floor := exact / grid
  match i.holds floor up down, i.holds (floor + 1) up down with
  | true, true => some (roundQuotient exact grid)
  | true, false => some floor
  | false, true => some (floor + 1)
  | false, false => none

/-- The first digit count, of at most 17, that has a candidate. -/
def firstCandidate (i : Interval) (place : Int) : (left count : Nat) → Nat × Nat
  | 0, count => ((candidate? i place count).getD 0, count)
  | left + 1, count =>
    match candidate? i place count with
    | some digits => (digits, count)
    | none => firstCandidate i place left (count + 1)

/-- A digit list without the zeros at its end. -/
def dropTrailingZeros (digits : List Char) : List Char :=
  (digits.reverse.dropWhile (· = '0')).reverse

/-- A positive mantissa with 53 bits, or with the least exponent, of the same value. -/
def widened (mantissa : Nat) (exponent : Int) : Nat × Int :=
  let shift := min (52 - mantissa.log2) (exponent + 1074).toNat
  (mantissa * powerOfTwo shift, exponent - shift)

/-- The shortest digits of a positive number and the place of the point before them: the value is
`0.digits * 10 ^ place`. -/
def shortest (mantissa : Nat) (exponent : Int) : List Char × Int :=
  let (mantissa, exponent) := widened mantissa exponent
  let i := interval mantissa exponent
  let numerator := i.value * i.numerator
  let guess : Int := ((numerator.log2 : Int) - (i.denominator.log2 : Int)) * 30103 / 100000 - 2
  let place := decimalPlace numerator i.denominator 8 guess
  let (digits, count) := firstCandidate i place 16 1
  let text := (toString digits).toList
  (dropTrailingZeros text, place + text.length - count)

/-- Writes `0.digits * 10 ^ place`. -/
def layOut (digits : List Char) (place : Int) : List Char :=
  let count := digits.length
  if (count : Int) ≤ place ∧ place ≤ 21 then
    digits ++ List.replicate (place.toNat - count) '0'
  else if 0 < place ∧ place ≤ 21 then
    digits.take place.toNat ++ '.' :: digits.drop place.toNat
  else if -6 < place ∧ place ≤ 0 then
    '0' :: '.' :: List.replicate (-place).toNat '0' ++ digits
  else
    let power := place - 1
    let sign := if power < 0 then '-' else '+'
    digits.take 1 ++ (if count = 1 then [] else '.' :: digits.drop 1) ++
      'e' :: sign :: (toString power.natAbs).toList

/-- The text of a number. Both zeros are written `0`. -/
def text : Number → String
  | notANumber => "NaN"
  | infinite true => "-Infinity"
  | infinite false => "Infinity"
  | finite _ 0 _ => "0"
  | finite negative (m + 1) e =>
    let (digits, place) := shortest (m + 1) e
    String.ofList ((if negative then ['-'] else []) ++ layOut digits place)

end ClusterUpgrade.Number
