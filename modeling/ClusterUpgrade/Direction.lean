import ClusterUpgrade.Named
import ClusterUpgrade.Text.Letters

/-!
# Directions

An upgrade moves a cluster to a newer version and a downgrade moves it back. Display texts use five
grammatical forms of the direction, four of them also with a capital.
-/

namespace ClusterUpgrade

/-- Whether the cluster moves to a newer or to an older version. -/
inductive Direction where
  | upgrade
  | downgrade
  deriving DecidableEq, Inhabited

namespace Direction

instance : Named Direction where
  all := [upgrade, downgrade]
  name
    | upgrade => "UPGRADE"
    | downgrade => "DOWNGRADE"

/-- A form of the direction in display texts. -/
inductive Form where
  | plain
  | past
  | plural
  | verb
  deriving DecidableEq

/-- A form of the direction in lower case. -/
def form : Direction → Form → String
  | upgrade, .plain => "upgrade"
  | upgrade, .past => "upgraded"
  | upgrade, .plural => "upgrades"
  | upgrade, .verb => "upgrading"
  | downgrade, .plain => "downgrade"
  | downgrade, .past => "downgraded"
  | downgrade, .plural => "downgrades"
  | downgrade, .verb => "downgrading"

/-- A form of the direction, with a capital when `proper`. -/
def said (d : Direction) (f : Form) (proper : Bool) : String :=
  if proper then Text.capitalised (d.form f) else d.form f

/-- The word between the direction and its version. -/
def preposition : Direction → String
  | upgrade => "to"
  | downgrade => "from"

def isDowngrade (d : Direction) : Bool := d = downgrade

end Direction

end ClusterUpgrade
