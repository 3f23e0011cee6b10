/-!
# Vocabularies

A type whose values are written as fixed words. Documents name such a value by its word, and a word
outside the vocabulary is reported together with the words that are allowed.
-/

namespace ClusterUpgrade

/-- The values of a vocabulary, in the order in which messages list them, and their words. -/
class Named (α : Type) where
  all : List α
  name : α → String

namespace Named

variable {α : Type} [Named α]

/-- The words of a vocabulary. -/
def names (α : Type) [Named α] : List String := (all : List α).map name

/-- The value with a word. -/
def ofName? (word : String) : Option α := all.find? fun a => name a = word

theorem name_of_ofName? {word : String} {a : α} (h : ofName? word = some a) : name a = word := by
  simpa using List.find?_some h

end Named

end ClusterUpgrade
