import ClusterUpgrade.Named

/-!
# Orchestration and scope

How a pack drives the hosts of a cluster, and which part of a pack a run takes.
-/

namespace ClusterUpgrade

/-- The way in which a pack drives the hosts. -/
inductive Orchestration where
  | rolling
  | nonRolling
  | hostOrdered
  deriving DecidableEq, Inhabited

instance : Named Orchestration where
  all := [.rolling, .nonRolling, .hostOrdered]
  name
    | .rolling => "ROLLING"
    | .nonRolling => "NON_ROLLING"
    | .hostOrdered => "HOST_ORDERED"

/-- The scope of a run, or of a grouping that applies to one scope only. -/
inductive Scope where
  | complete
  | partly
  | any
  deriving DecidableEq, Inhabited

instance : Named Scope where
  all := [.complete, .partly, .any]
  name
    | .complete => "COMPLETE"
    | .partly => "PARTIAL"
    | .any => "ANY"

/-- Whether a grouping declared for a scope applies to a run of another. -/
def Scope.admits (run declared : Scope) : Bool :=
  declared = .any ∨ run = .any ∨ declared = run

/-- The security mode of a cluster. -/
inductive SecurityType where
  | none
  | kerberos
  deriving DecidableEq, Inhabited

instance : Named SecurityType where
  all := [.none, .kerberos]
  name
    | .none => "NONE"
    | .kerberos => "KERBEROS"

end ClusterUpgrade
