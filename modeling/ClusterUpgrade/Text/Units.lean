/-!
# Sixteen-bit units

Lengths and cuts of text count units of 16 bits: a character above `U+FFFF` takes two of them, any
other takes one. A cut through a character of two units leaves the replacement character `U+FFFD` on
either side: a text holds no half of a character, and this is what is written for one. The same units
order file names.
-/

namespace ClusterUpgrade.Text

/-- How many units a character takes. -/
def width (c : Char) : Nat := if c.toNat < 0x10000 then 1 else 2

/-- How many units a text takes. -/
def units : List Char → Nat
  | [] => 0
  | c :: rest => width c + units rest

/-- The first `n` units of a text. -/
def takeUnits : Nat → List Char → List Char
  | _, [] => []
  | n, c :: rest =>
    if n = 0 then []
    else if width c ≤ n then c :: takeUnits (n - width c) rest else ['\ufffd']

/-- A text without its first `n` units. -/
def dropUnits : Nat → List Char → List Char
  | _, [] => []
  | n, c :: rest =>
    if n = 0 then c :: rest
    else if width c ≤ n then dropUnits (n - width c) rest else '\ufffd' :: rest

/-- The units of a character: itself, or a high and a low surrogate. -/
def unitsOf (c : Char) : List Nat :=
  if c.toNat < 0x10000 then [c.toNat]
  else [0xd800 + (c.toNat - 0x10000) / 0x400, 0xdc00 + (c.toNat - 0x10000) % 0x400]

/-- The first of two lists of units, by the first unit in which they differ. -/
def unitsBefore : List Nat → List Nat → Bool
  | [], [] => false
  | [], _ :: _ => true
  | _ :: _, [] => false
  | a :: as, b :: bs => if a = b then unitsBefore as bs else a < b

/-- The order of texts by their units. -/
def before (s t : String) : Bool :=
  unitsBefore (s.toList.flatMap unitsOf) (t.toList.flatMap unitsOf)

/-- The character of two surrogates, if they are a high one and a low one. -/
def pairSurrogates? (high low : Nat) : Option Char :=
  if 0xd800 ≤ high ∧ high < 0xdc00 ∧ 0xdc00 ≤ low ∧ low < 0xe000 then
    some (Char.ofNat (0x10000 + (high - 0xd800) * 0x400 + (low - 0xdc00)))
  else none

/-- The character of a number that is not a surrogate; a surrogate reads as `U+FFFD`. -/
def ofCode (code : Nat) : Char :=
  if 0xd800 ≤ code ∧ code < 0xe000 then '\ufffd' else Char.ofNat code

/-- The characters of some numbers. A high and a low surrogate that meet are one character. -/
def ofCodes : List Nat → List Char
  | high :: low :: rest =>
    match pairSurrogates? high low with
    | some c => c :: ofCodes rest
    | none => ofCode high :: ofCodes (low :: rest)
  | [code] => [ofCode code]
  | [] => []

@[simp] theorem units_nil : units [] = 0 := rfl

@[simp] theorem units_cons (c : Char) (s : List Char) : units (c :: s) = width c + units s := rfl

@[simp] theorem units_append (s t : List Char) : units (s ++ t) = units s + units t := by
  induction s with
  | nil => simp
  | cons c s ih => simp [ih, Nat.add_assoc]

end ClusterUpgrade.Text
