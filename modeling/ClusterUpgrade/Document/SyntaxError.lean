import ClusterUpgrade.Text.Search
import ClusterUpgrade.Text.Units

/-!
# Syntax errors

Why a text holds no JSON document. An error keeps the text from its place on; its message counts the
place in units of 16 bits and shows what stands around it. Where it cuts a character of two units in
half, the half that is left shows as U+FFFD.
-/

namespace ClusterUpgrade

/-- What is wrong with a JSON text. -/
inductive JsonFault where
  | endOfText
  /-- A character with which no value starts or goes on. -/
  | unexpected (found : Char)
  | expectedNameOrBrace
  | expectedName
  | expectedColon
  | expectedCommaOrBrace
  | expectedCommaOrBracket
  | trailingText
  /-- A number where none may start. -/
  | unexpectedNumber
  /-- A string where none may start. -/
  | unexpectedString
  | noNumberAfterMinus
  | unfinishedFraction
  | unfinishedPower
  | unfinishedString
  | controlCharacter
  | unknownEscape
  | brokenEscape
  deriving DecidableEq

/-- Why a text holds no document: what is wrong, and the text from there on. -/
structure SyntaxError where
  fault : JsonFault
  rest : List Char
  deriving DecidableEq

namespace JsonFault

/-- What a message says of a fault before its place. -/
def words : JsonFault → String
  | endOfText => "Unexpected end of JSON input"
  | unexpected c => "Unexpected token '" ++ c.toString ++ "'"
  | expectedNameOrBrace => "Expected property name or '\x7d' in JSON"
  | expectedName => "Expected double-quoted property name in JSON"
  | expectedColon => "Expected ':' after property name in JSON"
  | expectedCommaOrBrace => "Expected ',' or '\x7d' after property value in JSON"
  | expectedCommaOrBracket => "Expected ',' or ']' after array element in JSON"
  | trailingText => "Unexpected non-whitespace character after JSON"
  | unexpectedNumber => "Unexpected number in JSON"
  | unexpectedString => "Unexpected string in JSON"
  | noNumberAfterMinus => "No number after minus sign in JSON"
  | unfinishedFraction => "Unterminated fractional number in JSON"
  | unfinishedPower => "Exponent part is missing a number in JSON"
  | unfinishedString => "Unterminated string in JSON"
  | controlCharacter => "Bad control character in string literal in JSON"
  | unknownEscape => "Bad escaped character in JSON"
  | brokenEscape => "Bad Unicode escape in JSON"

/-- How many units are shown on either side of an unexpected character. -/
def contextWidth : Nat := 10

/-- What a message shows of a text around a position; a short text is shown as a whole. -/
def surroundings (text : List Char) (position : Nat) : String :=
  let length := Text.units text
  let whole := decide (length ≤ 2 * contextWidth)
  let fromStart := whole || decide (position < contextWidth)
  let toEnd := whole || (!fromStart && decide (length ≤ position + contextWidth))
  let start := if fromStart then 0 else position - contextWidth
  let shown := Text.dropUnits start text
  let shown := if toEnd then shown else Text.takeUnits (position + contextWidth - start) shown
  (if fromStart then "" else "...") ++ "\"" ++ String.ofList shown ++ "\"" ++
    if toEnd then "" else "..."

/-- The line and the column that follow a text, both counted from 1. -/
def lineAndColumn (text : List Char) : Nat × Nat :=
  let lines := Text.splitAt '\n' text
  (lines.length, Text.units (lines.getLastD []) + 1)

/-- Texts that are shown without a place: they come of values that have no JSON form. -/
def formless : List String := ["NaN", "Infinity", "undefined", "[object Object]"]

/-- The wording of a fault in a text, of which `rest` is left. -/
def message (fault : JsonFault) (text rest : List Char) : String :=
  let position := Text.units text - Text.units rest
  match fault with
  | endOfText => fault.words
  | unexpected _ =>
    (if String.ofList text ∈ formless then "\"" ++ String.ofList text ++ "\""
      else fault.words ++ ", " ++ surroundings text position) ++ " is not valid JSON"
  | _ =>
    let (line, column) := lineAndColumn (text.take (text.length - rest.length))
    fault.words ++ " at position " ++ toString position ++ " (line " ++ toString line ++
      " column " ++ toString column ++ ")"

end JsonFault

def SyntaxError.message (text : String) (e : SyntaxError) : String :=
  e.fault.message text.toList e.rest

end ClusterUpgrade
