import ClusterUpgrade.Pack.Basic
import ClusterUpgrade.Store.Read

/-!
# Conditions of a cluster

Whether the condition of a grouping holds in a cluster: a security mode is compared with that of the
cluster, and a property with the current configuration of its type. A property that is not set there
is still found if every configuration has it. What is found then is no text: it is present and equal
to no value, and looking for a text in it breaks the planning off.
-/

namespace ClusterUpgrade.Condition

/-- The value of a property in the current configuration of a type. -/
def actual? (s : Store) (configType property : String) : Option String :=
  (s.currentConfig? configType).bind fun c => c.properties.get? property

/-- Whether a property that is not set is found in the current configuration of a type. -/
def findsInherited (s : Store) (configType property : String) : Bool :=
  (s.currentConfig? configType).any fun c =>
    !c.properties.has property && Reserved.isInherited property

/-- Whether the condition holds in a cluster. -/
def holds (s : Store) : Condition → Bool
  | security mode => s.securityType = mode
  | config configType property comparison value =>
    if findsInherited s configType property then
      comparison = .present ∨ comparison = .notEquals
    else compares comparison (value.getD "") (actual? s configType property)

/-- Whether the condition looks for a text in what is no text. -/
def breaks (s : Store) : Condition → Bool
  | security _ => false
  | config configType property comparison _ =>
    findsInherited s configType property && (comparison = .contains || comparison = .notContains)

end ClusterUpgrade.Condition
