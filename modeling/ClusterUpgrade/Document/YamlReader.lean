import ClusterUpgrade.Document.Basic

/-!
# Readers of YAML texts

What reads a YAML text is given from outside: any function from texts to documents may. Whoever asks
it says whether plain numbers become numbers.
-/

namespace ClusterUpgrade.Document

/-- Whether plain numbers become numbers or stay text. -/
inductive NumberStyle where
  | resolved
  | written
  deriving DecidableEq

/-- Gives the document of a text, or says what is wrong with it. -/
abbrev YamlReader := NumberStyle → String → Except String Document

end ClusterUpgrade.Document
