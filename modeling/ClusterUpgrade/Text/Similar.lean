import ClusterUpgrade.Text.Units

/-!
# Similar words

The distance of two words is the least number of edits that turn one into the other: inserting,
deleting or replacing a unit, or swapping two neighbours. A word is similar to another when at most
three edits lie between them and more than two fifths of the longer one stay untouched.
-/

namespace ClusterUpgrade.Text

/-- Whether some number of edits is enough to turn one list of units into another. Where both start
with the same unit it is kept: no edit of it would help. -/
def withinEdits : (edits : Nat) → (a b : List Nat) → Bool
  | edits, [], b => b.length ≤ edits
  | edits, a, [] => a.length ≤ edits
  | edits, x :: a, y :: b =>
    if x = y then withinEdits edits a b
    else
      match edits with
      | 0 => false
      | edits + 1 =>
        withinEdits edits a b || withinEdits edits a (y :: b) || withinEdits edits (x :: a) b ||
          (a.head? == some y && b.head? == some x && withinEdits edits a.tail b.tail)
  termination_by _ a b => a.length + b.length
  decreasing_by all_goals simp only [List.length_cons, List.length_tail]; omega

/-- The distance of two lists of units, if it is at most three. -/
def distance? (a b : List Nat) : Option Nat := [0, 1, 2, 3].find? (withinEdits · a b)

/-- The distance of a word from a candidate that is similar to it. A candidate of one unit is
similar to none. -/
def similarity? (word candidate : String) : Option Nat :=
  let a := word.toList.flatMap unitsOf
  let b := candidate.toList.flatMap unitsOf
  let length := max a.length b.length
  (distance? a b).filter fun d => 1 < b.length && 2 * length < 5 * (length - d)

/-- The candidates that are most similar to a word, in their order as texts. -/
def mostSimilar (word : String) (candidates : List String) : List String :=
  let near := candidates.filterMap fun c => (similarity? word c).map (·, c)
  let best := near.filter fun n => near.all (n.1 ≤ ·.1)
  (best.map (·.2)).mergeSort fun a b => !before b a

end ClusterUpgrade.Text
