import ClusterUpgrade.Document.JsonReader
import ClusterUpgrade.Document.Yaml.Fault
import ClusterUpgrade.Document.YamlReader
import ClusterUpgrade.Number.Order

/-!
# YAML scalars

Plain scalars resolve by the core schema: a few words stand for null and the booleans, the usual
decimal, hexadecimal and octal forms for numbers, and everything else is text. A topology keeps its
numbers as they are written, so that a property value never changes its form.

A scalar of several lines is folded: blanks around a line break are dropped, one line break reads as
a blank, and of more than one the first is dropped. In double quotes an escaped blank is not
dropped, and an escaped line break joins its two lines.
-/

namespace ClusterUpgrade.Document.Yaml

open Json (digits decimalValue hexNumber?)

/-! ## Plain scalars -/

/-- The words for null; an empty scalar is null as well. -/
def nullWords : List String := ["", "~", "null", "Null", "NULL"]

def booleanWords : List (String × Bool) :=
  [("true", true), ("True", true), ("TRUE", true), ("false", false), ("False", false),
    ("FALSE", false)]

/-- The sign of a number and what follows it. -/
def signed : List Char → Bool × List Char
  | '-' :: rest => (true, rest)
  | '+' :: rest => (false, rest)
  | rest => (false, rest)

/-- The value of octal digits. -/
def octalNumber? (ds : List Char) : Option Nat :=
  ds.foldlM (fun n c => if '0' ≤ c ∧ c ≤ '7' then some (n * 8 + (c.toNat - 48)) else none) 0

/-- The exponent of a decimal, if the text is nothing else. -/
def exponent? : List Char → Option Int
  | [] => some 0
  | e :: rest =>
    if e = 'e' ∨ e = 'E' then
      let (negative, rest) := signed rest
      match digits rest with
      | (d :: ds, []) =>
        some (if negative then -(decimalValue (d :: ds) : Int) else decimalValue (d :: ds))
      | _ => none
    else none

/-- A decimal: digits before or after a point, and perhaps an exponent. -/
def decimal? (s : List Char) : Option Number :=
  let (negative, s) := signed s
  let (whole, s) := digits s
  let (part, s) := match s with
    | '.' :: rest => digits rest
    | rest => ([], rest)
  if whole.isEmpty ∧ part.isEmpty then none
  else (exponent? s).map fun e =>
    Number.ofDecimal negative (decimalValue (whole ++ part)) (e - part.length)

/-- The names of the values that are not finite. -/
def namedNumber? (s : String) : Option Number :=
  if s ∈ [".nan", ".NaN", ".NAN"] then some .notANumber
  else
    let (negative, rest) := signed s.toList
    if String.ofList rest ∈ [".inf", ".Inf", ".INF"] then some (.infinite negative) else none

/-- The number of a plain scalar. -/
def number? (s : String) : Option Number :=
  match s.toList with
  | '0' :: 'o' :: d :: ds => (octalNumber? (d :: ds)).map fun n => Number.ofDecimal false n 0
  | '0' :: 'x' :: d :: ds => (hexNumber? (d :: ds)).map fun n => Number.ofDecimal false n 0
  | cs => match decimal? cs with
    | some n => some n
    | none => namedNumber? s

/-- What a plain scalar stands for. -/
def resolvePlain (style : NumberStyle) (s : String) : Document :=
  if s ∈ nullWords then .null
  else match booleanWords.lookup s with
    | some b => .boolean b
    | none =>
      match style, number? s with
      | .resolved, some n => .number n
      | _, _ => .text s

/-! ## Folding -/

/-- Whether a character is a blank inside a line. -/
def isBlank (c : Char) : Bool := c == ' ' || c == '\t'

/-- What line breaks read as: one is a blank, more are one break less. -/
def foldedBreaks (count : Nat) : List Char :=
  if count = 1 then [' '] else List.replicate (count - 1) '\n'

/-- A line without the blanks at its end; a carriage return belongs to the line break. -/
def trimEnd (line : List Char) : List Char :=
  let reversed := match line.reverse with
    | '\r' :: rest => rest
    | reversed => reversed
  (reversed.dropWhile isBlank).reverse

/-- Further lines of a scalar after some line breaks. -/
def foldedLines (breaks : Nat) : List (List Char) → List Char
  | [] => []
  | [last] => foldedBreaks breaks ++ last.dropWhile isBlank
  | line :: rest =>
    let line := trimEnd (line.dropWhile isBlank)
    if line.isEmpty then foldedLines (breaks + 1) rest
    else foldedBreaks breaks ++ line ++ foldedLines 1 rest

/-- A scalar without escapes as it reads. -/
def folded (source : List Char) : List Char :=
  match Text.splitAt '\n' source with
  | first :: line :: rest => trimEnd first ++ foldedLines 1 (line :: rest)
  | _ => source

/-! ## Quoted scalars -/

/-- The text between single quotes; a quote inside is written twice. -/
def singleQuoted (source : List Char) : String :=
  String.ofList (Text.replaceAll ['\'', '\''] ['\''] (folded source))

def letterEscape? : Char → Option Char
  | '0' => some '\x00'
  | 'a' => some '\x07'
  | 'b' => some '\x08'
  | 't' => some '\t'
  | '\t' => some '\t'
  | 'n' => some '\n'
  | 'v' => some '\x0b'
  | 'f' => some '\x0c'
  | 'r' => some '\r'
  | 'e' => some '\x1b'
  | ' ' => some ' '
  | '"' => some '"'
  | '/' => some '/'
  | '\\' => some '\\'
  | 'N' => some '\u0085'
  | '_' => some '\u00a0'
  | 'L' => some '\u2028'
  | 'P' => some '\u2029'
  | _ => none

/-- How many hexadecimal digits follow the letter of an escape. -/
def escapeWidth? : Char → Option Nat
  | 'x' => some 2
  | 'u' => some 4
  | 'U' => some 8
  | _ => none

/-- The number of an escape with hexadecimal digits. -/
def escapedCode (width : Nat) (s : List Char) : Except YamlFault Nat :=
  if s.length < width then .error .unknownEscape
  else match hexNumber? (s.take width) with
    | none => .error .unknownEscape
    | some code => if code < 0x110000 then .ok code else .error (.noCharacter code)

/-- The line breaks at the start of a text, and the text from its next character that is neither a
blank nor part of a line break. -/
def passBreaks : List Char → Nat × List Char
  | '\n' :: rest =>
    let (count, rest) := passBreaks rest
    (count + 1, rest)
  | '\r' :: '\n' :: rest =>
    let (count, rest) := passBreaks rest
    (count + 1, rest)
  | ' ' :: rest => passBreaks rest
  | '\t' :: rest => passBreaks rest
  | rest => (0, rest)

/-- Whether a line ends here. -/
def atLineBreak : List Char → Bool
  | '\n' :: _ => true
  | '\r' :: '\n' :: _ => true
  | _ => false

/-- The numbers of the characters between double quotes. -/
def doubleQuotedCodes : (bound : Nat) → List Char → Except YamlFault (List Nat)
  | 0, _ => .error .unfinished
  | bound + 1, s =>
    match s with
    | [] => .ok []
    | '\\' :: '\n' :: rest => doubleQuotedCodes bound (rest.dropWhile isBlank)
    | '\\' :: '\r' :: '\n' :: rest => doubleQuotedCodes bound (rest.dropWhile isBlank)
    | '\\' :: e :: rest =>
      match escapeWidth? e, letterEscape? e with
      | some width, _ => do
        let code ← escapedCode width rest
        return code :: (← doubleQuotedCodes bound (rest.drop width))
      | none, some c => (doubleQuotedCodes bound rest).map (c.toNat :: ·)
      | none, none => .error .unknownEscape
    | c :: rest =>
      if atLineBreak (c :: rest) then
        let (count, rest) := passBreaks (c :: rest)
        (doubleQuotedCodes bound rest).map ((foldedBreaks count).map Char.toNat ++ ·)
      else if isBlank c ∧ atLineBreak (rest.dropWhile isBlank) then
        doubleQuotedCodes bound (rest.dropWhile isBlank)
      else (doubleQuotedCodes bound rest).map (c.toNat :: ·)

/-- The text between double quotes. -/
def doubleQuoted (source : List Char) : Except YamlFault String :=
  (doubleQuotedCodes (source.length + 1) source).map fun codes =>
    String.ofList (Text.ofCodes codes)

/-! ## Scalars as keys -/

/-- Whether two keys are one key twice. -/
def sameKey : Document → Document → Bool
  | .null, .null => true
  | .boolean a, .boolean b => a == b
  | .number a, .number b => a.same b
  | .text a, .text b => a == b
  | _, _ => false

/-- The text of a scalar that stands as a key. -/
def keyText : Document → String
  | .null => ""
  | d => d.scalarText?.getD ""

end ClusterUpgrade.Document.Yaml
