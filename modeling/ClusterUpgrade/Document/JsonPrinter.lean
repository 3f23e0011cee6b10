import ClusterUpgrade.Document.Basic

/-!
# Writing documents as JSON

Two layouts: everything on one line, or one item a line with two blanks for each level. Numbers that
are not finite are written `null`.
-/

namespace ClusterUpgrade.Document

/-- The hexadecimal digit of a number below 16. -/
def hexDigit (n : Nat) : Char := if n < 10 then Char.ofNat (48 + n) else Char.ofNat (87 + n)

/-- A character as it stands in a JSON string. -/
def escaped (c : Char) : List Char :=
  if c = '"' then ['\\', '"']
  else if c = '\\' then ['\\', '\\']
  else if c = '\n' then ['\\', 'n']
  else if c = '\r' then ['\\', 'r']
  else if c = '\t' then ['\\', 't']
  else if c = '\x08' then ['\\', 'b']
  else if c = '\x0c' then ['\\', 'f']
  else if c.toNat < 0x20 then
    ['\\', 'u', '0', '0', hexDigit (c.toNat / 16), hexDigit (c.toNat % 16)]
  else [c]

/-- A text as a JSON string. -/
def quoted (s : String) : String :=
  "\"" ++ String.ofList (s.toList.flatMap escaped) ++ "\""

def numberJson : Number → String
  | n@(.finite ..) => n.text
  | _ => "null"

mutual

/-- A document on one line. -/
def compact : Document → String
  | null => "null"
  | boolean b => if b then "true" else "false"
  | number n => numberJson n
  | text s => quoted s
  | list items => "[" ++ Text.joined "," (compactItems items) ++ "]"
  | record fields => "\x7b" ++ Text.joined "," (compactFields fields) ++ "\x7d"

/-- The items of a list on one line. -/
def compactItems : List Document → List String
  | [] => []
  | d :: rest => d.compact :: compactItems rest

/-- The fields of a record on one line. -/
def compactFields : List (String × Document) → List String
  | [] => []
  | (key, d) :: rest => (quoted key ++ ":" ++ d.compact) :: compactFields rest

end

/-- The start of a line at a level. -/
def indentation (level : Nat) : String := String.ofList (List.replicate (2 * level) ' ')

/-- Items between brackets, one a line. -/
def bracketed (opening closing : String) (level : Nat) (items : List String) : String :=
  if items.isEmpty then opening ++ closing
  else
    let separator := "\n" ++ indentation (level + 1)
    opening ++ separator ++ Text.joined ("," ++ separator) items ++ "\n" ++ indentation level ++
      closing

mutual

/-- A document with one item a line. -/
def pretty (level : Nat) : Document → String
  | null => "null"
  | boolean b => if b then "true" else "false"
  | number n => numberJson n
  | text s => quoted s
  | list items => bracketed "[" "]" level (prettyItems (level + 1) items)
  | record fields => bracketed "\x7b" "\x7d" level (prettyFields (level + 1) fields)

/-- The items of a list at a level. -/
def prettyItems (level : Nat) : List Document → List String
  | [] => []
  | d :: rest => d.pretty level :: prettyItems level rest

/-- The fields of a record at a level. -/
def prettyFields (level : Nat) : List (String × Document) → List String
  | [] => []
  | (key, d) :: rest => (quoted key ++ ": " ++ d.pretty level) :: prettyFields level rest

end

end ClusterUpgrade.Document
