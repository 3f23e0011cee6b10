/-!
# Faults of YAML texts

What the reader of `Document.Yaml.read` finds wrong with a text. It reads block and bracket
collections, plain and quoted scalars and comments.
-/

namespace ClusterUpgrade

/-- What is wrong with a YAML text. -/
inductive YamlFault where
  | unfinished
  | unexpected
  /-- A sign that starts something other than the collections and scalars of documents. -/
  | unsupported
  | indentation
  | tabIndentation
  | commentWithoutBlank
  | duplicateKey
  | nestedMapping
  | keyOnSeveralLines
  | keyTooLong
  | keyWithoutValue
  | unknownEscape
  /-- An escape for a number that no character has. -/
  | noCharacter (code : Nat)
  deriving DecidableEq

def YamlFault.message : YamlFault → String
  | unfinished => "The text ends inside a value"
  | unexpected => "Unexpected character"
  | unsupported => "Only collections, scalars and comments are allowed"
  | indentation => "Unexpected indentation"
  | tabIndentation => "Tabs are not allowed as indentation"
  | commentWithoutBlank => "A comment must follow a blank"
  | duplicateKey => "Map keys must be unique"
  | nestedMapping => "Nested mappings are not allowed on one line"
  | keyOnSeveralLines => "Keys must stand on one line"
  | keyTooLong => "A key must be followed by its colon within 1024 characters"
  | keyWithoutValue => "A key must be followed by a colon"
  | unknownEscape => "Unknown escape in a quoted text"
  | noCharacter code => "Invalid code point " ++ toString code

end ClusterUpgrade
