import ClusterUpgrade.Config.Reserved
import ClusterUpgrade.Text.Blank
import ClusterUpgrade.Text.Letters
import ClusterUpgrade.Text.Units

/-!
# Redaction

Nothing secret reaches a log in full. Three patterns are masked inside any text:

1. bearer tokens: `Bearer` in any letter case, blanks, and a run of letters, digits and `. _ -`;
2. signed web tokens: two runs that start with `eyJ` and a third one, divided by points;
3. credentials in a URL: `//user:password@`.

Under a sensitive key the whole value is masked. A masked text of ten units or more keeps its first
and its last four. Nothing is shown under the name that stands for the record itself.
-/

namespace ClusterUpgrade.Log

/-! ## Masks -/

/-- The mask of a text of fewer than ten units, and of a value that is no text. -/
def redactedMark : String := "[REDACTED]"

/-- A text masked but for its first and its last four units. -/
def maskedChars (s : List Char) : List Char :=
  let n := Text.units s
  if n < 10 then redactedMark.toList
  else Text.takeUnits 4 s ++ "...".toList ++ Text.dropUnits (n - 4) s

/-- A masked text. -/
def masked (s : String) : String := String.ofList (maskedChars s.toList)

/-! ## Patterns -/

/-- A pattern: the number of characters that it matches at the start of a text. -/
abbrev Pattern := List Char → Option Nat

/-- What follows a word at the start of a text, in any letter case. -/
def afterWord? : (word text : List Char) → Option (List Char)
  | [], text => some text
  | _ :: _, [] => none
  | w :: word, c :: text => if w = Text.lowerLetter c then afterWord? word text else none

def isBearerChar (c : Char) : Bool := Text.isAlphanumeric c || c == '.' || c == '_' || c == '-'

/-- The characters of a run of a signed web token. -/
def isTokenChar (c : Char) : Bool := Text.isAlphanumeric c || c == '_' || c == '-'

/-- A bearer token. -/
def bearer : Pattern := fun s => do
  let rest ← afterWord? "bearer".toList s
  let blanks := rest.takeWhile Text.isBlank
  let run := (rest.dropWhile Text.isBlank).takeWhile isBearerChar
  if blanks.isEmpty ∨ run.isEmpty then none else some (6 + blanks.length + run.length)

/-- A signed web token. -/
def webToken : Pattern := fun s => do
  let rest ← Text.afterPiece? "eyJ".toList s
  let head := rest.takeWhile isTokenChar
  let rest ← Text.afterPiece? ".eyJ".toList (rest.dropWhile isTokenChar)
  let body := rest.takeWhile isTokenChar
  let rest ← Text.afterPiece? ".".toList (rest.dropWhile isTokenChar)
  some (8 + head.length + body.length + (rest.takeWhile isTokenChar).length)

/-- The characters of a user name in a URL. -/
def isUserChar (c : Char) : Bool := !(c == '/' || c == ':' || c == '@' || Text.isBlank c)

def isPasswordChar (c : Char) : Bool := !(c == '/' || c == '@' || Text.isBlank c)

/-- Credentials in a URL. -/
def credentials : Pattern := fun s => do
  let rest ← Text.afterPiece? "//".toList s
  let user := rest.takeWhile isUserChar
  let rest ← Text.afterPiece? ":".toList (rest.dropWhile isUserChar)
  let password := rest.takeWhile isPasswordChar
  let _ ← Text.afterPiece? "@".toList (rest.dropWhile isPasswordChar)
  if user.isEmpty ∨ password.isEmpty then none else some (4 + user.length + password.length)

/-- Masks every match of a pattern, from left to right; the first `skip` characters belong to a
match that has been masked already. -/
def maskFrom (p : Pattern) : (skip : Nat) → List Char → List Char
  | _, [] => []
  | skip + 1, _ :: rest => maskFrom p skip rest
  | 0, c :: rest =>
    match p (c :: rest) with
    | some n => maskedChars ((c :: rest).take n) ++ maskFrom p (n - 1) rest
    | none => c :: maskFrom p 0 rest

/-- A text with every match of the three patterns masked, one pattern after the other. -/
def maskedPatterns (s : String) : String :=
  String.ofList (maskFrom credentials 0 (maskFrom webToken 0 (maskFrom bearer 0 s.toList)))

/-! ## Values -/

/-- The words that make a key sensitive. -/
def sensitiveWords : List String := ["password", "secret", "token", "credential", "keytab.pass"]

/-- Whether the value of a key is never shown: one of the words occurs in it, in any letter case. -/
def isSensitive (key : String) : Bool :=
  sensitiveWords.any fun w => Text.occursIn w.toList (Text.lower key).toList

/-- The value of a sensitive key as a log shows it. -/
def maskedValue : Document → Document
  | .text s => .text (if s = "" then redactedMark else masked s)
  | .null => .null
  | _ => .text redactedMark

/-- What stands for a value that lies deeper than ten levels. -/
def depthMark : String := "[MAX_DEPTH]"

mutual

/-- A value as a log shows it, at a depth. -/
def redacted (depth : Nat) : Document → Document
  | .null => if 10 < depth then .text depthMark else .null
  | .boolean b => if 10 < depth then .text depthMark else .boolean b
  | .number n => if 10 < depth then .text depthMark else .number n
  | .text s => .text (if 10 < depth then depthMark else maskedPatterns s)
  | .list items => if 10 < depth then .text depthMark else .list (redactedItems (depth + 1) items)
  | .record fields =>
    if 10 < depth then .text depthMark else .record (redactedFields depth fields)

/-- The items of a list as a log shows them. -/
def redactedItems (depth : Nat) : List Document → List Document
  | [] => []
  | d :: rest => redacted depth d :: redactedItems depth rest

/-- The fields of a record as a log shows them. -/
def redactedFields (depth : Nat) : List (String × Document) → List (String × Document)
  | [] => []
  | (key, d) :: rest =>
    if Reserved.isWritable key then
      (key, if isSensitive key then maskedValue d else redacted (depth + 1) d) ::
        redactedFields depth rest
    else redactedFields depth rest

end

end ClusterUpgrade.Log
