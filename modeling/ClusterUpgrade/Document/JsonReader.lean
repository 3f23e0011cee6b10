import ClusterUpgrade.Document.Basic
import ClusterUpgrade.Document.SyntaxError

/-!
# Reading JSON

The reader takes the text of one document and nothing after it but blanks. Every step returns what
it has left of the text; the bound on the number of steps is twice the length of the text, since of
two steps that recur one has read a character before.

Of two fields with one key the later value stays. An escape of a lone surrogate reads as `U+FFFD`.
-/

namespace ClusterUpgrade

namespace Document.Json

/-- The error of a fault at the start of a rest. -/
def fail {α : Type} (fault : JsonFault) (rest : List Char) : Except SyntaxError α :=
  .error ⟨fault, rest⟩

def startsNumber (c : Char) : Bool := c == '-' || c.isDigit

/-- The error of a text that goes on with something that may not stand there. -/
def failAt {α : Type} : List Char → Except SyntaxError α
  | [] => fail .endOfText []
  | '"' :: rest => fail .unexpectedString ('"' :: rest)
  | c :: rest => fail (if startsNumber c then .unexpectedNumber else .unexpected c) (c :: rest)

/-- Whether a character may stand between two tokens. -/
def isSpace (c : Char) : Bool := c == ' ' || c == '\n' || c == '\r' || c == '\t'

/-- The text from its next token. -/
def skip (s : List Char) : List Char := s.dropWhile isSpace

/-- The value of a hexadecimal digit. -/
def hexValue? (c : Char) : Option Nat :=
  if '0' ≤ c ∧ c ≤ '9' then some (c.toNat - 48)
  else if 'a' ≤ c ∧ c ≤ 'f' then some (c.toNat - 87)
  else if 'A' ≤ c ∧ c ≤ 'F' then some (c.toNat - 55)
  else none

/-- The value of hexadecimal digits. -/
def hexNumber? (digits : List Char) : Option Nat :=
  digits.foldlM (fun n c => (hexValue? c).map (n * 16 + ·)) 0

/-- The unit of an escape with four hexadecimal digits. -/
def unit? : List Char → Option (Nat × List Char)
  | a :: b :: c :: d :: rest => (hexNumber? [a, b, c, d]).map (·, rest)
  | _ => none

/-- The character of a unit, together with a low surrogate that may follow. -/
def unitChar (unit : Nat) (rest : List Char) : Char × List Char :=
  match rest with
  | '\\' :: 'u' :: after =>
    match unit? after with
    | some (low, after) =>
      match Text.pairSurrogates? unit low with
      | some c => (c, after)
      | none => (Text.ofCode unit, rest)
    | none => (Text.ofCode unit, rest)
  | _ => (Text.ofCode unit, rest)

def letterEscape? : Char → Option Char
  | '"' => some '"'
  | '\\' => some '\\'
  | '/' => some '/'
  | 'b' => some '\x08'
  | 'f' => some '\x0c'
  | 'n' => some '\n'
  | 'r' => some '\r'
  | 't' => some '\t'
  | _ => none

/-- A text without the hexadecimal digits at its start, of which there are at most `bound`. -/
def afterHex : (bound : Nat) → List Char → List Char
  | 0, s => s
  | _ + 1, [] => []
  | bound + 1, c :: rest => if (hexValue? c).isSome then afterHex bound rest else c :: rest

/-- The rest of a string after its opening quote; `seen` holds what has been read, last first. -/
def string : (bound : Nat) → (seen : List Char) → List Char →
    Except SyntaxError (String × List Char)
  | 0, _, s => fail .unfinishedString s
  | bound + 1, seen, s =>
    match s with
    | [] => fail .unfinishedString []
    | '"' :: rest => .ok (String.ofList seen.reverse, rest)
    | '\\' :: 'u' :: rest =>
      match unit? rest with
      | some (unit, rest) =>
        let (c, rest) := unitChar unit rest
        string bound (c :: seen) rest
      | none => fail .brokenEscape (afterHex 4 rest)
    | '\\' :: e :: rest =>
      match letterEscape? e with
      | some c => string bound (c :: seen) rest
      | none => fail (if e.toNat ≤ 0xff then .unknownEscape else .unexpected e) (e :: rest)
    | c :: rest =>
      if c = '\\' then fail .endOfText []
      else if c.toNat < 0x20 then fail .controlCharacter (c :: rest)
      else string bound (c :: seen) rest

def decimalValue (digits : List Char) : Nat :=
  digits.foldl (fun n c => n * 10 + (c.toNat - 48)) 0

/-- The digits at the start of a text. -/
def digits (s : List Char) : List Char × List Char :=
  (s.takeWhile Char.isDigit, s.dropWhile Char.isDigit)

/-- The digits after a point, if there is one. -/
def fraction : List Char → Except SyntaxError (List Char × List Char)
  | '.' :: rest =>
    match digits rest with
    | ([], rest) => fail .unfinishedFraction rest
    | (ds, rest) => .ok (ds, rest)
  | rest => .ok ([], rest)

/-- The power after the letter `e`, if there is one. -/
def power (s : List Char) : Except SyntaxError (Int × List Char) :=
  match s with
  | e :: rest =>
    if e = 'e' ∨ e = 'E' then
      let (negative, rest) :=
        match rest with
        | '-' :: rest => (true, rest)
        | '+' :: rest => (false, rest)
        | rest => (false, rest)
      match digits rest with
      | ([], rest) => fail .unfinishedPower rest
      | (ds, rest) => .ok (if negative then -(decimalValue ds : Int) else decimalValue ds, rest)
    else .ok (0, s)
  | [] => .ok (0, [])

def number (s : List Char) : Except SyntaxError (Number × List Char) := do
  let (negative, s) := match s with
    | '-' :: rest => (true, rest)
    | rest => (false, rest)
  let (whole, s) ← match digits s with
    | ([], rest) => fail .noNumberAfterMinus rest
    | ('0' :: d :: ds, rest) => fail .unexpectedNumber (d :: ds ++ rest)
    | (ds, rest) => .ok (ds, rest)
  let (part, s) ← fraction s
  let (exponent, s) ← power s
  return (Number.ofDecimal negative (decimalValue (whole ++ part)) (exponent - part.length), s)

/-- Reads a word that stands for a value. -/
def word (d : Document) : (letters : List Char) → List Char →
    Except SyntaxError (Document × List Char)
  | [], s => .ok (d, s)
  | _ :: _, [] => failAt []
  | l :: letters, c :: rest => if l = c then word d letters rest else failAt (c :: rest)

mutual

/-- A value at the start of a text. -/
def value : (bound : Nat) → List Char → Except SyntaxError (Document × List Char)
  | 0, s => failAt s
  | bound + 1, s =>
    match s with
    | '"' :: rest => (string (rest.length + 1) [] rest).map fun (t, rest) => (.text t, rest)
    | '[' :: rest =>
      match skip rest with
      | ']' :: rest => .ok (.list [], rest)
      | rest => items bound [] rest
    | '\x7b' :: rest =>
      match skip rest with
      | '\x7d' :: rest => .ok (.record [], rest)
      | rest => fields bound [] rest
    | 'n' :: rest => word .null "ull".toList rest
    | 't' :: rest => word (.boolean true) "rue".toList rest
    | 'f' :: rest => word (.boolean false) "alse".toList rest
    | s =>
      if s.head?.any startsNumber then
        (number s).map fun (n, rest) => (.number n, rest)
      else failAt s

/-- The items of a list up to its closing bracket; `seen` holds the items read, last first. -/
def items : (bound : Nat) → (seen : List Document) → List Char →
    Except SyntaxError (Document × List Char)
  | 0, _, s => failAt s
  | bound + 1, seen, s => do
    let (d, s) ← value bound s
    match skip s with
    | ',' :: rest => items bound (d :: seen) (skip rest)
    | ']' :: rest => return (.list (d :: seen).reverse, rest)
    | s => fail .expectedCommaOrBracket s

/-- The fields of a record up to its closing brace. -/
def fields : (bound : Nat) → (seen : List (String × Document)) → List Char →
    Except SyntaxError (Document × List Char)
  | 0, _, s => failAt s
  | bound + 1, seen, s =>
    match s with
    | '"' :: rest => do
      let (key, s) ← string (rest.length + 1) [] rest
      match skip s with
      | ':' :: rest =>
        let (d, s) ← value bound (skip rest)
        let seen := putEntry seen key d
        match skip s with
        | ',' :: rest => fields bound seen (skip rest)
        | '\x7d' :: rest => return (.record seen, rest)
        | s => fail .expectedCommaOrBrace s
      | s => fail .expectedColon s
    | s => fail (if seen.isEmpty then .expectedNameOrBrace else .expectedName) s

end

/-- The document of a JSON text. -/
def read (text : String) : Except SyntaxError Document := do
  let s := text.toList
  let (d, rest) ← value (2 * s.length + 2) (skip s)
  match skip rest with
  | [] => return d
  | rest => fail .trailingText rest

end Document.Json

end ClusterUpgrade
