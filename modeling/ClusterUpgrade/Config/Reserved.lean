import ClusterUpgrade.Reserved
import ClusterUpgrade.Store.Basic

/-!
# Reserved configuration types

Every set of defaults knows the configuration types of the reserved names, also when it does not
list them. A reserved type that is not listed ships nothing, and the properties that are its own
count as known to the stack.
-/

namespace ClusterUpgrade.Reserved

/-- Properties without a value. -/
def unvalued (names : List String) : Defaults := Record.ofList (names.map (·, none))

/-- The own properties of a reserved type. -/
def ownDefaults? (type : String) : Option Defaults :=
  if type = recordName then some (unvalued (makerName :: recordName :: abilityNames))
  else if type = makerName then
    some ((unvalued ("length" :: makerAbilities)).insert "name" (some "Object"))
  else if type ∈ abilityNames then some ((unvalued ["length"]).insert "name" (some type))
  else none

/-- Whether every set of defaults knows a type of this name. -/
def isKnown (type : String) : Bool := (ownDefaults? type).isSome

theorem isKnown_eq_isInherited (type : String) : isKnown type = isInherited type := by
  unfold isKnown ownDefaults? isInherited isFunction
  split
  · simp_all
  · split
    · simp_all
    · split <;> simp_all

end ClusterUpgrade.Reserved
